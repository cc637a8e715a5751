import BotHive.Auth.Invites
import BotHive.Library.Machine

/-!
# Whether an invite is used once

A redemption reads its invite before the transaction, and the transaction does not look whether
the invite has been used since. What stops a second redemption is the user of the first one, as
long as there is one: when that user has been deleted, a redemption that was checked before the
first one succeeds too.

## Main results

- `InviteRequest.effect_of_execute`: all that a statement can do
- `InviteApi.Tracked.step`: what holds of the invites whatever runs
- `InviteApi.singleUse_iff_redeemsOnce`: every token is redeemed at most once in a run exactly
  when each checked redemption of a used invite finds a user with its email
- `InviteApi.not_singleUse_deletedUser`: two redemptions with a delete between them
-/

namespace BotHive.Auth

/-- What a statement does to the tables, and where it leads. -/
inductive InviteEffect (s : InviteApi) (stage : InviteStage) : InviteApi → InviteStage → Prop
  | answer (reply : InviteReply) : InviteEffect s stage s (.answered reply)
  | goOn (next : InviteStage) (hnext : ∀ token id invite checkedAt name,
      next ≠ .redeem token id invite checkedAt name) : InviteEffect s stage s next
  | check (token id : String) (invite : Invite) (name : Option String)
      (hget : s.invites.get id = some invite) (htoken : invite.token = token)
      (hunused : invite.usedAt = none) (htime : s.now ≤ invite.expiresAt) :
      InviteEffect s stage s (.redeem token id invite s.now name)
  | create (id : String) (invite : Invite) (reply : InviteReply)
      (hfresh : ∀ other ∈ s.issued, other.1 ≠ id ∧ other.2.token ≠ invite.token)
      (hunused : invite.usedAt = none) :
      InviteEffect s stage { s with
        invites := s.invites.set id invite
        issued := (id, invite) :: s.issued } (.answered reply)
  | revoke (id : String) (invite : Invite) (reply : InviteReply)
      (hget : s.invites.get id = some invite) (hunused : invite.usedAt = none) :
      InviteEffect s stage { s with
        invites := s.invites.delete id
        revoked := id :: s.revoked } (.answered reply)
  | redeem (token id : String) (invite row : Invite) (checkedAt : ℤ) (name : Option String)
      (users : AdminApi) (user : User) (reply : InviteReply)
      (hstage : stage = .redeem token id invite checkedAt name)
      (hget : s.invites.get id = some row)
      (hfree : registered s.users.users invite.email = false)
      (hemail : user.email = invite.email) (hrole : user.role = invite.role) :
      InviteEffect s stage { s with
        users := users
        invites := s.invites.set id { row with usedAt := some s.now }
        redemptions := ⟨token, checkedAt, user, id ∈ s.revoked⟩ :: s.redemptions }
        (.answered reply)

theorem findInvite_eq_some {invites : InsertionMap String Invite} {token id : String}
    {invite : Invite} (h : findInvite invites token = some (id, invite)) :
    invites.get id = some invite ∧ invite.token = token := by
  refine ⟨(invites.mem_entries_iff id invite).mp (List.mem_of_find?_eq_some h), ?_⟩
  simpa using List.find?_some h

theorem effect_redeemInvite (s : InviteApi) (drawn : Drawn) (token id : String) (invite : Invite)
    (checkedAt : ℤ) (name : Option String) :
    InviteEffect s (.redeem token id invite checkedAt name)
      (redeemInvite s drawn token id invite checkedAt name).1
      (redeemInvite s drawn token id invite checkedAt name).2 := by
  rw [redeemInvite]
  cases hget : s.invites.get id with
  | none => exact .answer _
  | some row =>
    cases hfree : registered s.users.users invite.email with
    | true => exact .answer _
    | false => exact .redeem token id invite row checkedAt name _ _ _ rfl hget hfree rfl rfl

section Execute

variable [CaseMapping]

theorem InviteRequest.handle_ne_redeem (me : String) (command : InviteCommand)
    (token id : String) (invite : Invite) (checkedAt : ℤ) (name : Option String) :
    handle me command ≠ .redeem token id invite checkedAt name := by
  rw [handle.eq_def]
  split
  · split_ifs <;> rintro ⟨⟩
  · rintro ⟨⟩
  · rintro ⟨⟩
  · rintro ⟨⟩

theorem InviteRequest.effect_of_execute {request : InviteRequest} {s s' : InviteApi}
    {drawn : Drawn} {stage stage' : InviteStage}
    (h : request.execute s drawn stage = some (s', stage')) : InviteEffect s stage s' stage' := by
  cases stage with
  | requireAdmin =>
    simp only [execute] at h
    split at h
    · cases h
      exact .answer _
    · split at h
      · cases h
        exact .answer _
      · split_ifs at h
        · cases h
          exact .goOn _ (handle_ne_redeem _ _)
        · cases h
          exact .answer _
  | findActive me email role =>
    simp only [execute] at h
    split_ifs at h
    · cases h
      exact .answer _
    · cases h
      exact .goOn _ (by rintro _ _ _ _ _ ⟨⟩)
  | findRegistered me email role =>
    simp only [execute] at h
    split_ifs at h
    · cases h
      exact .answer _
    · cases h
      exact .goOn _ (by rintro _ _ _ _ _ ⟨⟩)
  | create me email role =>
    simp only [execute] at h
    split_ifs at h with hused
    cases h
    refine .create _ _ _ ?_ rfl
    intro other hother
    simpa using fun hor => hused (List.any_eq_true.mpr ⟨other, hother, hor⟩)
  | deleteUnused id =>
    simp only [execute] at h
    split at h
    · cases h
      exact .answer _
    case h_2 invite hget =>
      split_ifs at h with hused
      · cases h
        exact .answer _
      · cases h
        exact .revoke id invite _ hget (by simpa using hused)
  | findInvite token password name =>
    simp only [execute] at h
    split at h
    · cases h
      exact .answer _
    case h_2 id invite hfind =>
      obtain ⟨hget, htoken⟩ := findInvite_eq_some hfind
      split_ifs at h with hused hlate
      · cases h
        exact .answer _
      · cases h
        exact .answer _
      · cases h
        exact .check token id invite name hget htoken (by simpa using hused) (by omega)
  | redeem token id invite checkedAt name =>
    simp only [execute] at h
    split_ifs at h
    have heffect := effect_redeemInvite s drawn token id invite checkedAt name
    rw [Option.some.inj h] at heffect
    exact heffect
  | answered reply => cases h

end Execute

theorem InviteRequest.start_ne_redeem (command : InviteCommand)
    (token id : String) (invite : Invite) (checkedAt : ℤ) (name : Option String) :
    start command ≠ .redeem token id invite checkedAt name := by
  rw [start.eq_def]
  split
  · split_ifs <;> rintro ⟨⟩
  · rintro ⟨⟩
  · rintro ⟨⟩

namespace InviteApi

/-- What holds of the invites whatever runs. -/
structure Tracked (s : InviteApi) : Prop where
  ids : (s.issued.map Prod.fst).Nodup
  tokens : (s.issued.map fun issue => issue.2.token).Nodup
  rows : ∀ id row, s.invites.get id = some row → (id, { row with usedAt := none }) ∈ s.issued
  checked : ∀ request token id invite checkedAt name,
    (request, .redeem token id invite checkedAt name) ∈ s.requests →
      (id, invite) ∈ s.issued ∧ invite.token = token ∧ checkedAt ≤ invite.expiresAt
  used : ∀ id row, s.invites.get id = some row →
    (row.usedAt.isSome ↔ row.token ∈ s.redemptions.map Redemption.token)
  gone : ∀ id ∈ s.revoked, s.invites.get id = none ∧ id ∈ s.issued.map Prod.fst
  follows : ∀ r ∈ s.redemptions, ∃ issue ∈ s.issued, Follows r issue.2
  unrevoked : ∀ r ∈ s.redemptions, r.revoked = false

theorem Tracked.start (users : Users) : (start users).Tracked where
  ids := List.nodup_nil
  tokens := List.nodup_nil
  rows _ _ h := (Option.some_ne_none _ h.symm).elim
  checked _ _ _ _ _ _ h := (List.not_mem_nil h).elim
  used _ _ h := (Option.some_ne_none _ h.symm).elim
  gone _ h := (List.not_mem_nil h).elim
  follows _ h := (List.not_mem_nil h).elim
  unrevoked _ h := (List.not_mem_nil h).elim

variable {s : InviteApi}

theorem Tracked.singleUse_iff (h : s.Tracked) :
    s.SingleUse ↔ (s.redemptions.map Redemption.token).Nodup :=
  ⟨fun hs => hs.once, fun honce => ⟨honce, h.follows, h.unrevoked⟩⟩

/-- An id stands for one invite. -/
theorem Tracked.invite_eq (h : s.Tracked) {id : String} {invite invite' : Invite}
    (hmem : (id, invite) ∈ s.issued) (hmem' : (id, invite') ∈ s.issued) : invite = invite' :=
  congrArg Prod.snd (List.inj_on_of_nodup_map h.ids hmem hmem' rfl)

/-- A token stands for one id. -/
theorem Tracked.id_eq (h : s.Tracked) {id id' : String} {invite invite' : Invite}
    (hmem : (id, invite) ∈ s.issued) (hmem' : (id', invite') ∈ s.issued)
    (htoken : invite.token = invite'.token) : id = id' :=
  congrArg Prod.fst (List.inj_on_of_nodup_map h.tokens hmem hmem' htoken)

/-- Requests that arrive or go on without a check. -/
theorem Tracked.requests (h : s.Tracked) {requests : List (InviteRequest × InviteStage)}
    (hrequests : ∀ request token id invite checkedAt name,
      (request, .redeem token id invite checkedAt name) ∈ requests →
        (request, .redeem token id invite checkedAt name) ∈ s.requests) :
    Tracked { s with requests } :=
  ⟨h.ids, h.tokens, h.rows, fun request token id invite checkedAt name hmem =>
    h.checked _ _ _ _ _ _ (hrequests request token id invite checkedAt name hmem),
    h.used, h.gone, h.follows, h.unrevoked⟩

theorem Tracked.create (h : s.Tracked) {id : String} {invite : Invite}
    (hfresh : ∀ other ∈ s.issued, other.1 ≠ id ∧ other.2.token ≠ invite.token)
    (hunused : invite.usedAt = none) :
    Tracked { s with
      invites := s.invites.set id invite
      issued := (id, invite) :: s.issued } := by
  obtain ⟨hids, htokens, hrows, hchecked, hused, hgone, hfollows, hunrevoked⟩ := h
  have hnew : invite.token ∉ s.redemptions.map Redemption.token := by
    intro hmem
    obtain ⟨r, hr, htoken⟩ := List.mem_map.mp hmem
    obtain ⟨issue, hissue, hr⟩ := hfollows r hr
    exact (hfresh issue hissue).2 (hr.token.trans htoken)
  constructor <;> simp only [InsertionMap.get_set]
  · refine List.nodup_cons.mpr ⟨?_, hids⟩
    intro hmem
    obtain ⟨other, hother, hid⟩ := List.mem_map.mp hmem
    exact (hfresh other hother).1 hid
  · refine List.nodup_cons.mpr ⟨?_, htokens⟩
    intro hmem
    obtain ⟨other, hother, htoken⟩ := List.mem_map.mp hmem
    exact (hfresh other hother).2 htoken
  · intro id' row hget
    split_ifs at hget with hid
    · obtain rfl := Option.some.inj hget
      rw [hid, ← hunused]
      exact List.mem_cons_self
    · exact List.mem_cons_of_mem _ (hrows id' row hget)
  · intro request token id' invite' checkedAt name hmem
    exact (hchecked request token id' invite' checkedAt name hmem).imp_left
      (List.mem_cons_of_mem _)
  · intro id' row hget
    split_ifs at hget with hid
    · obtain rfl := Option.some.inj hget
      rw [hunused]
      exact iff_of_false Bool.false_ne_true hnew
    · exact hused id' row hget
  · intro id' hid'
    obtain ⟨hnone, hmem⟩ := hgone id' hid'
    have hne : id' ≠ id := by
      rintro rfl
      obtain ⟨other, hother, hid⟩ := List.mem_map.mp hmem
      exact (hfresh other hother).1 hid
    rw [if_neg hne]
    exact ⟨hnone, List.mem_cons_of_mem _ hmem⟩
  · intro r hr
    obtain ⟨issue, hissue, hr⟩ := hfollows r hr
    exact ⟨issue, List.mem_cons_of_mem _ hissue, hr⟩
  · exact hunrevoked

theorem Tracked.revoke (h : s.Tracked) {id : String} {invite : Invite}
    (hget : s.invites.get id = some invite) :
    Tracked { s with
      invites := s.invites.delete id
      revoked := id :: s.revoked } := by
  have hissued := h.rows id invite hget
  obtain ⟨hids, htokens, hrows, hchecked, hused, hgone, hfollows, hunrevoked⟩ := h
  refine ⟨hids, htokens, ?_, hchecked, ?_, ?_, hfollows, hunrevoked⟩ <;>
    simp only [InsertionMap.get_delete]
  · intro id' row hget'
    split_ifs at hget'
    exact hrows id' row hget'
  · intro id' row hget'
    split_ifs at hget'
    exact hused id' row hget'
  · rintro id' (_ | ⟨_, hid'⟩)
    · exact ⟨if_pos rfl, List.mem_map_of_mem hissued⟩
    · obtain ⟨hnone, hmem⟩ := hgone id' hid'
      refine ⟨?_, hmem⟩
      split_ifs
      · rfl
      · exact hnone

/-- A transaction that goes through uses the row of its invite. -/
theorem Tracked.redeem (h : s.Tracked) {token id : String} {invite row : Invite} {checkedAt : ℤ}
    (hchecked : (id, invite) ∈ s.issued ∧ invite.token = token ∧ checkedAt ≤ invite.expiresAt)
    (hget : s.invites.get id = some row) (users : AdminApi) {user : User}
    (hemail : user.email = invite.email) (hrole : user.role = invite.role) :
    Tracked { s with
      users := users
      invites := s.invites.set id { row with usedAt := some s.now }
      redemptions := ⟨token, checkedAt, user, id ∈ s.revoked⟩ :: s.redemptions } := by
  obtain ⟨hissued, htoken, htime⟩ := hchecked
  have hrow : invite = { row with usedAt := none } :=
    h.invite_eq hissued (h.rows id row hget)
  have hrowtoken : row.token = token := by
    rw [← htoken, hrow]
  have hid := fun id' row' (hget' : s.invites.get id' = some row') (heq : row'.token = token) =>
    h.id_eq (h.rows id' row' hget') hissued (heq.trans htoken.symm)
  obtain ⟨hids, htokens, hrows, hchecked, hused, hgone, hfollows, hunrevoked⟩ := h
  refine ⟨hids, htokens, ?_, hchecked, ?_, ?_, ?_, ?_⟩ <;> simp only [InsertionMap.get_set]
  · intro id' row' hget'
    split_ifs at hget' with heq
    · obtain rfl := Option.some.inj hget'
      rw [heq, ← hrow]
      exact hissued
    · exact hrows id' row' hget'
  · intro id' row' hget'
    split_ifs at hget' with heq
    · obtain rfl := Option.some.inj hget'
      exact iff_of_true rfl (hrowtoken ▸ List.mem_cons_self)
    · rw [hused id' row' hget', List.map_cons, List.mem_cons]
      exact ⟨Or.inr, fun hor => hor.resolve_left fun hsame => heq (hid id' row' hget' hsame)⟩
  · intro id' hid'
    obtain ⟨hnone, hmem⟩ := hgone id' hid'
    have hne : id' ≠ id := by
      rintro rfl
      rw [hget] at hnone
      cases hnone
    rw [if_neg hne]
    exact ⟨hnone, hmem⟩
  · rintro r (_ | ⟨_, hr⟩)
    · exact ⟨(id, invite), hissued, htoken, hemail, hrole, htime⟩
    · exact hfollows r hr
  · rintro r (_ | ⟨_, hr⟩)
    · apply decide_eq_false
      intro hrevoked
      rw [(hgone id hrevoked).1] at hget
      cases hget
    · exact hunrevoked r hr

/-- What a request checked stays true, and the other requests stay where they are. -/
theorem Tracked.effect (h : s.Tracked) {request : InviteRequest} {s' : InviteApi}
    {stage stage' : InviteStage} (hmem : (request, stage) ∈ s.requests)
    (heffect : InviteEffect s stage s' stage') :
    s'.Tracked ∧ s'.requests = s.requests ∧ ∀ token id invite checkedAt name,
      stage' = .redeem token id invite checkedAt name →
        (id, invite) ∈ s'.issued ∧ invite.token = token ∧ checkedAt ≤ invite.expiresAt := by
  cases heffect with
  | answer reply =>
    refine ⟨h, rfl, ?_⟩
    rintro _ _ _ _ _ ⟨⟩
  | goOn _ hnext => exact ⟨h, rfl, fun _ _ _ _ _ heq => absurd heq (hnext _ _ _ _ _)⟩
  | check token id invite name hget htoken hunused htime =>
    refine ⟨h, rfl, ?_⟩
    rintro _ _ _ _ _ ⟨⟩
    have hissued := h.rows id invite hget
    rw [← hunused] at hissued
    exact ⟨hissued, htoken, htime⟩
  | create id invite reply hfresh hunused =>
    refine ⟨h.create hfresh hunused, rfl, ?_⟩
    rintro _ _ _ _ _ ⟨⟩
  | revoke id invite reply hget hunused =>
    refine ⟨h.revoke hget, rfl, ?_⟩
    rintro _ _ _ _ _ ⟨⟩
  | redeem token id invite row checkedAt name users user reply hstage hget hfree hemail hrole =>
    subst hstage
    refine ⟨h.redeem (h.checked _ _ _ _ _ _ hmem) hget users hemail hrole, rfl, ?_⟩
    rintro _ _ _ _ _ ⟨⟩

theorem Tracked.setRequest (h : s.Tracked) (i : ℕ) (request : InviteRequest) {stage : InviteStage}
    (hstage : ∀ token id invite checkedAt name, stage = .redeem token id invite checkedAt name →
      (id, invite) ∈ s.issued ∧ invite.token = token ∧ checkedAt ≤ invite.expiresAt) :
    Tracked { s with requests := s.requests.set i (request, stage) } := by
  refine ⟨h.ids, h.tokens, h.rows, ?_, h.used, h.gone, h.follows, h.unrevoked⟩
  intro request' token id invite checkedAt name hmem
  rcases List.mem_or_eq_of_mem_set hmem with hmem | heq
  · exact h.checked request' token id invite checkedAt name hmem
  · exact hstage token id invite checkedAt name (congrArg Prod.snd heq).symm

/-- A transaction redeems a token again exactly when its invite has been used and nobody has its
    email. -/
theorem Tracked.redeem_iff (h : s.Tracked)
    (honce : (s.redemptions.map Redemption.token).Nodup) (drawn : Drawn) {token id : String}
    {invite : Invite} {checkedAt : ℤ} (name : Option String)
    (hchecked : (id, invite) ∈ s.issued ∧ invite.token = token ∧ checkedAt ≤ invite.expiresAt) :
    ((redeemInvite s drawn token id invite checkedAt name).1.redemptions.map
        Redemption.token).Nodup ↔
      ∀ row, s.invites.get id = some row → row.usedAt.isSome →
        registered s.users.users invite.email = true := by
  rw [redeemInvite]
  cases hget : s.invites.get id with
  | none =>
    refine iff_of_true honce ?_
    rintro _ ⟨⟩
  | some row =>
    cases hfree : registered s.users.users invite.email with
    | true => exact iff_of_true honce fun _ _ _ => rfl
    | false =>
      have hrow := h.invite_eq hchecked.1 (h.rows id row hget)
      have htoken : row.token = token := by
        rw [← hchecked.2.1, hrow]
      have hused := h.used id row hget
      rw [htoken] at hused
      simp only [Bool.false_eq_true, if_false, List.map_cons, List.nodup_cons, honce, and_true,
        Option.some.injEq, forall_eq', ← hused, imp_false]

section Run

variable [CaseMapping]

theorem Tracked.step (s : InviteApi) (a : InviteAction) (s' : InviteApi) (h : s.Tracked)
    (hstep : s.step a = some s') : s'.Tracked := by
  cases a with
  | wait ms =>
    obtain rfl := Option.some.inj hstep
    exact ⟨h.ids, h.tokens, h.rows, h.checked, h.used, h.gone, h.follows, h.unrevoked⟩
  | user a =>
    obtain ⟨users, -, rfl⟩ := Option.map_eq_some_iff.mp hstep
    exact ⟨h.ids, h.tokens, h.rows, h.checked, h.used, h.gone, h.follows, h.unrevoked⟩
  | insertUser id user =>
    obtain ⟨-, ⟨⟩⟩ := Option.ite_none_left_eq_some.mp hstep
    exact ⟨h.ids, h.tokens, h.rows, h.checked, h.used, h.gone, h.follows, h.unrevoked⟩
  | arrive request =>
    obtain rfl := Option.some.inj hstep
    apply h.requests
    intro request' token id invite checkedAt name hmem
    rcases List.mem_append.mp hmem with hmem | hmem
    · exact hmem
    · have heq := congrArg Prod.snd (List.mem_singleton.mp hmem)
      exact absurd heq.symm (InviteRequest.start_ne_redeem request.command _ _ _ _ _)
  | advance i drawn =>
    obtain ⟨⟨request, stage⟩, hi, hmap⟩ := Option.bind_eq_some_iff.mp hstep
    obtain ⟨⟨t, stage'⟩, hexecute, rfl⟩ := Option.map_eq_some_iff.mp hmap
    obtain ⟨htracked, hrequests, hstage⟩ :=
      h.effect (List.mem_of_getElem? hi) (InviteRequest.effect_of_execute hexecute)
    have hset := htracked.setRequest i request hstage
    rw [hrequests] at hset
    exact hset

/-- Only the transaction of a redemption redeems. -/
theorem execute_redemptions {request : InviteRequest} {t : InviteApi} {drawn : Drawn}
    {stage stage' : InviteStage} (hexecute : request.execute s drawn stage = some (t, stage'))
    (hstage : ∀ token id invite checkedAt name,
      stage ≠ .redeem token id invite checkedAt name) : t.redemptions = s.redemptions := by
  cases InviteRequest.effect_of_execute hexecute with
  | answer reply => rfl
  | goOn _ hnext => rfl
  | check token id invite name hget htoken hunused htime => rfl
  | create id invite reply hfresh hunused => rfl
  | revoke id invite reply hget hunused => rfl
  | redeem token id invite row checkedAt name users user reply heq hget hfree hemail hrole =>
    exact absurd heq (hstage _ _ _ _ _)

theorem Tracked.step_iff (s : InviteApi) (a : InviteAction) (s' : InviteApi) (h : s.Tracked)
    (hs : s.SingleUse) (hstep : s.step a = some s') : s'.SingleUse ↔ s.RedeemsOnce a := by
  rw [(Tracked.step s a s' h hstep).singleUse_iff]
  cases a with
  | wait ms =>
    obtain rfl := Option.some.inj hstep
    exact iff_of_true hs.once trivial
  | user a =>
    obtain ⟨users, -, rfl⟩ := Option.map_eq_some_iff.mp hstep
    exact iff_of_true hs.once trivial
  | insertUser id user =>
    obtain ⟨-, ⟨⟩⟩ := Option.ite_none_left_eq_some.mp hstep
    exact iff_of_true hs.once trivial
  | arrive request =>
    obtain rfl := Option.some.inj hstep
    exact iff_of_true hs.once trivial
  | advance i drawn =>
    obtain ⟨⟨request, stage⟩, hi, hmap⟩ := Option.bind_eq_some_iff.mp hstep
    obtain ⟨⟨t, stage'⟩, hexecute, rfl⟩ := Option.map_eq_some_iff.mp hmap
    rw [RedeemsOnce, hi]
    by_cases hstage : ∀ token id invite checkedAt name,
        stage ≠ .redeem token id invite checkedAt name
    · show (t.redemptions.map Redemption.token).Nodup ↔ _
      rw [execute_redemptions hexecute hstage]
      refine iff_of_true hs.once ?_
      rintro request' token id invite checkedAt name ⟨⟩
      exact absurd rfl (hstage token id invite checkedAt name)
    · push Not at hstage
      obtain ⟨token, id, invite, checkedAt, name, rfl⟩ := hstage
      have hchecked := h.checked _ _ _ _ _ _ (List.mem_of_getElem? hi)
      have hiff := h.redeem_iff hs.once drawn name hchecked
      simp only [InviteRequest.execute] at hexecute
      split_ifs at hexecute
      rw [Option.some.inj hexecute] at hiff
      refine hiff.trans ⟨?_, fun hall => hall _ _ _ _ _ _ rfl⟩
      rintro hall request' token' id' invite' checkedAt' name' ⟨⟩
      exact hall

/-- Every token is redeemed at most once, as its invite says, in time and not after its
    revocation, whatever the order of the statements, exactly when each checked redemption of a
    used invite finds a user with its email. -/
theorem singleUse_iff_redeemsOnce (users : Users) (as : List InviteAction) :
    Machine.Everywhere step SingleUse (start users) as ↔
      Machine.Along step RedeemsOnce (start users) as := by
  apply Machine.everywhere_iff_along_of_invariant Tracked Tracked.step Tracked.step_iff
  · exact Tracked.start users
  · exact (Tracked.start users).singleUse_iff.mpr List.nodup_nil

end Run

/-- Two redemptions are checked, the first one succeeds, its user is deleted, and the second one
    runs. -/
def redeemedTwice : List InviteAction :=
  [.arrive ⟨some "admin", .create (some "new@bots.test") none⟩,
    .advance 0 ⟨"", "", ""⟩, .advance 0 ⟨"", "", ""⟩, .advance 0 ⟨"", "", ""⟩,
    .advance 0 ⟨"invite", "token", ""⟩,
    .arrive ⟨none, .redeem (some "token") (some "first") none⟩, .advance 1 ⟨"", "", ""⟩,
    .arrive ⟨none, .redeem (some "token") (some "second") none⟩, .advance 2 ⟨"", "", ""⟩,
    .advance 1 ⟨"user1", "", "first"⟩,
    .user (.arrive ⟨some "admin", "user1", .delete⟩), .user (.advance 0), .user (.advance 0),
    .user (.advance 0),
    .advance 2 ⟨"user2", "", "second"⟩]

theorem not_singleUse_deletedUser :
    ¬ Machine.Everywhere step SingleUse
      (start (.ofList [("admin", ⟨"admin@bots.test", "", none, .admin, 0⟩)])) redeemedTwice := by
  intro heverywhere
  have htokens : (Machine.exec step
      (start (.ofList [("admin", ⟨"admin@bots.test", "", none, .admin, 0⟩)])) redeemedTwice).map
        (fun s => s.redemptions.map Redemption.token) = some ["token", "token"] := by
    rfl
  obtain ⟨s, hexec, hmap⟩ := Option.map_eq_some_iff.mp htokens
  have honce := (heverywhere.at_end hexec).once
  rw [hmap] at honce
  exact (List.nodup_cons.mp honce).1 List.mem_cons_self

end InviteApi

end BotHive.Auth
