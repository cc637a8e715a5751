import BotHive.Auth.Revocation

/-!
# Revocation in every run

The steps of the handlers keep the invariant of sessions as long as nothing falls in between a
login and a password change, and the keys of logouts outlive their tokens. What the invariant
says of the epoch and of the keys is what the revocation check needs.

## Main results

- `Inv.step`: every step that is not overtaken keeps the invariant
- `revokes_of_notOvertaken`: revocation is effective in every run of such steps
- `not_revokes_overtakenLogin`: a password change that overtakes a login does not revoke its token
- `not_revokes_freshLogin`, `not_revokes_earlyLogout`: the other ways in which it is not
-/

namespace BotHive.Auth

namespace Sessions

variable {s s' : Sessions}

section Logins

variable {i : ℕ} {l l' : Login}

theorem Inv.setLogin (h : s.Inv) (hl : s.LoginRight l') : (s.setLogin i l').Inv := by
  have hlater : Later s (s.setLogin i l') :=
    later_of_same rfl rfl rfl rfl rfl rfl (Nat.le_refl _)
  refine h.of_later hlater (h.counted.of_same rfl rfl rfl) (fun x hx => ?_)
    (fun _ => .inl) (fun _ => .inl) (fun _ _ _ => .inl) fun _ => .inl
  rcases List.mem_or_eq_of_mem_set hx with hold | rfl
  · exact .inl hold
  · exact .inr (hl.later hlater)

theorem Inv.issueUserToken (h : s.Inv) (hl : s.LoginRight l) {epoch : ℕ}
    (hphase : l.phase = .signing epoch) : (s.issueUserToken i l epoch).Inv := by
  obtain ⟨hver, hsettled⟩ := hl.2 epoch hphase
  have hlater : Later s (s.issueUserToken i l epoch) := by
    refine ⟨fun _ => Nat.le_refl _, fun _ => Nat.le_refl _, fun _ _ h => h, fun t ht => ?_,
      fun _ h => h, fun _ _ h => h⟩
    exact (List.getElem?_append_left (List.getElem?_eq_some_iff.mp ht).1).trans ht
  refine h.of_later hlater (h.counted.of_same rfl rfl rfl) (fun x hx => ?_) (fun t ht => ?_)
    (fun _ => .inl) (fun _ _ _ => .inl) fun _ => .inl
  · rcases List.mem_or_eq_of_mem_set hx with hold | rfl
    · exact .inl hold
    · exact .inr ⟨hl.1, fun _ he => nomatch he⟩
  · rcases List.mem_append.mp ht with hold | hnew
    · exact .inl hold
    · rw [List.mem_singleton.mp hnew]
      exact .inr ⟨hver, hsettled⟩

/-- A login that reads the epoch undisturbed reads the version that it verified. -/
theorem loginRight_signing (h : s.Inv) (hl : s.LoginRight l)
    (hok : ∀ c ∈ s.changes, c.user = l.user → ∀ v, c.written = some v →
      (c.hasBumped = true ↔ v ≤ l.version)) :
    s.LoginRight { l with phase := .signing (s.epoch l.user) } := by
  have hsettled : s.Settled l.user l.version :=
    ⟨hl.1, fun c hc hu v hv hle => (hok c hc hu v hv).mpr hle⟩
  refine ⟨hl.1, fun epoch he => ?_⟩
  cases he
  refine ⟨?_, hsettled⟩
  by_contra hne
  have hlt : l.version < s.epoch l.user :=
    Nat.lt_of_le_of_ne (le_epoch h.counted hsettled) (Ne.symm hne)
  obtain ⟨c, hc, hu, hbumped, v, hv, hlater⟩ := bumped_of_lt_epoch h.counted hl.1 hlt
  exact absurd ((hok c hc hu v hv).mp hbumped) (Nat.not_le_of_lt hlater)

theorem Inv.loginStep (h : s.Inv) {e : SessionEvent} (hi : s.logins[i]? = some l)
    (hok : ∀ j, e = .readEpoch j → ∀ c ∈ s.changes, c.user = l.user → ∀ v, c.written = some v →
      (c.hasBumped = true ↔ v ≤ l.version))
    (hstep : s.loginStep i l e = some s') : s'.Inv := by
  have hl : s.LoginRight l := h.logins l (List.mem_of_getElem? hi)
  unfold Sessions.loginStep at hstep
  split at hstep
  · split_ifs at hstep <;> cases hstep <;> exact h.setLogin ⟨hl.1, fun _ he => nomatch he⟩
  · split_ifs at hstep
    cases hstep
    exact h.setLogin (loginRight_signing h hl (hok _ rfl))
  · split at hstep
    · rename_i hphase
      cases hstep
      exact h.issueUserToken hl hphase
    · cases hstep
  · cases hstep

end Logins

section Changes

variable {k : ℕ} {c c' : PasswordChange}

/-- The steps of a change that neither write nor bump. -/
theorem Inv.setChange (h : s.Inv) (hk : s.changes[k]? = some c) (huser : c'.user = c.user)
    (hwritten : c'.written = c.written) (hbumped : c'.hasBumped = c.hasBumped) :
    (s.setChange k c').Inv := by
  have hchanges : (s.setChange k c').changes = s.changes.set k c' := rfl
  have hlater : Later s (s.setChange k c') :=
    ⟨fun _ => Nat.le_refl _, fun _ => Nat.le_refl _,
      fun _ _ => Settled.set hk hchanges rfl huser hwritten fun hb => hbumped.trans hb,
      fun _ h => h, fun _ h => h, fun _ _ h => h⟩
  have hcounted : (s.setChange k c').Counted :=
    h.counted.set hk hchanges rfl huser hwritten fun u => by rw [hbumped]; rfl
  exact h.of_later hlater hcounted (fun _ => .inl) (fun _ => .inl) (fun _ => .inl)
    (fun _ _ _ => .inl) fun _ => .inl

/-- A new change has neither written nor bumped. -/
theorem Inv.startChange (h : s.Inv) (user : String) :
    Inv { s with changes := s.changes ++ [⟨user, .started⟩] } := by
  have hchanges : Sessions.changes { s with changes := s.changes ++ [⟨user, .started⟩] } =
      s.changes ++ [⟨user, .started⟩] := rfl
  have hlater : Later s { s with changes := s.changes ++ [⟨user, .started⟩] } :=
    ⟨fun _ => Nat.le_refl _, fun _ => Nat.le_refl _, fun _ _ => Settled.concat rfl hchanges rfl,
      fun _ h => h, fun _ h => h, fun _ _ h => h⟩
  exact h.of_later hlater (h.counted.concat rfl rfl hchanges rfl rfl) (fun _ => .inl) (fun _ => .inl)
    (fun _ => .inl) (fun _ _ _ => .inl) fun _ => .inl

theorem Inv.updateHash (h : s.Inv) (hk : s.changes[k]? = some c) (hphase : c.phase = .verified) :
    Inv { s.setChange k { c with phase := .updated (s.hash c.user + 1) } with
      hash := Function.update s.hash c.user (s.hash c.user + 1) } := by
  have hnone : c.written = none := by simp [PasswordChange.written, hphase]
  have hold : c.hasBumped = false := by simp [PasswordChange.hasBumped, hphase]
  obtain ⟨c', hc'⟩ : ∃ c' : PasswordChange, c' = { c with phase := .updated (s.hash c.user + 1) } :=
    ⟨_, rfl⟩
  have huser : c'.user = c.user := by rw [hc']
  have hwritten : c'.written = some (s.hash c.user + 1) := by rw [hc']; rfl
  have hnew : c'.hasBumped = false := by rw [hc']; rfl
  rw [← hc']
  refine h.of_later ⟨fun u => ?_, fun _ => Nat.le_refl _,
    fun _ _ => Settled.updateHash rfl huser hwritten rfl, fun _ h => h, fun _ h => h,
    fun _ _ h => h⟩ (h.counted.updateHash hk hnone hold hnew huser hwritten rfl rfl rfl)
    (fun _ => .inl) (fun _ => .inl) (fun _ => .inl) (fun _ _ _ => .inl) fun _ => .inl
  show s.hash u ≤ Function.update s.hash c.user (s.hash c.user + 1) u
  by_cases hu : u = c.user
  · rw [hu, Function.update_self]
    exact Nat.le_succ _
  · rw [Function.update_of_ne hu]

theorem Inv.bumpEpoch (h : s.Inv) (hk : s.changes[k]? = some c) {v : ℕ}
    (hphase : c.phase = .updated v) :
    Inv { s.setChange k { c with phase := .bumped v } with
      epoch := Function.update s.epoch c.user (s.epoch c.user + 1) } := by
  have hold : c.hasBumped = false := by simp [PasswordChange.hasBumped, hphase]
  obtain ⟨c', hc'⟩ : ∃ c' : PasswordChange, c' = { c with phase := .bumped v } := ⟨_, rfl⟩
  have huser : c'.user = c.user := by rw [hc']
  have hwritten : c'.written = c.written := by
    rw [hc']
    simp [PasswordChange.written, hphase]
  have hnew : c'.hasBumped = true := by rw [hc']; rfl
  have hepoch (u : String) : Function.update s.epoch c.user (s.epoch c.user + 1) u =
      s.epoch u + if c.user = u then 1 else 0 := by
    by_cases hu : u = c.user
    · rw [hu, Function.update_self, if_pos rfl]
    · rw [Function.update_of_ne hu, if_neg (Ne.symm hu), Nat.add_zero]
  rw [← hc']
  have hchanges : Sessions.changes { s.setChange k c' with
      epoch := Function.update s.epoch c.user (s.epoch c.user + 1) } = s.changes.set k c' := rfl
  refine h.of_later ⟨fun _ => Nat.le_refl _, fun u => ?_,
    fun _ _ => Settled.set hk hchanges rfl huser hwritten fun _ => hnew,
    fun _ h => h, fun _ h => h, fun _ _ h => h⟩
    (h.counted.set hk hchanges rfl huser hwritten fun u => ?_) (fun _ => .inl) (fun _ => .inl)
    (fun _ => .inl) (fun _ _ _ => .inl) fun _ => .inl
  · exact (Nat.le_add_right _ _).trans (hepoch u).ge
  · show Function.update s.epoch c.user (s.epoch c.user + 1) u + _ = _
    rw [hepoch u, hold, hnew]
    simp

theorem Inv.changeStep (h : s.Inv) {e : SessionEvent} (hk : s.changes[k]? = some c)
    (hstep : s.changeStep k c e = some s') : s'.Inv := by
  unfold Sessions.changeStep at hstep
  split at hstep
  · split_ifs at hstep with hphase hok
    · cases hstep
      refine h.setChange hk rfl ?_ ?_ <;> simp [PasswordChange.written, PasswordChange.hasBumped, hphase]
    · cases hstep
      refine h.setChange hk rfl ?_ ?_ <;> simp [PasswordChange.written, PasswordChange.hasBumped, hphase]
  · split_ifs at hstep with hphase
    cases hstep
    exact h.updateHash hk hphase
  · split at hstep
    · rename_i v hphase
      cases hstep
      exact h.bumpEpoch hk hphase
    · cases hstep
  · split at hstep
    · rename_i v hphase
      cases hstep
      refine h.setChange hk rfl ?_ ?_ <;> simp [PasswordChange.written, PasswordChange.hasBumped, hphase]
    · cases hstep
  · cases hstep

end Changes

section Logouts

variable {k : ℕ} {l l' : Logout}

theorem keySet_setLogout (l' : Logout) (hk : s.logouts[k]? = some l) (htoken : l'.token = l.token)
    (hset : l.phase = .set ∨ l.phase = .answered → l'.phase = .set ∨ l'.phase = .answered)
    {t : Token} (ht : s.KeySet t) : (s.setLogout k l').KeySet t := by
  obtain ⟨x, hx, ht, hphase⟩ := ht
  obtain ⟨n, hn⟩ := List.mem_iff_getElem?.mp hx
  by_cases hnk : n = k
  · -- the logout is the one that is replaced
    subst hnk
    obtain rfl : l = x := Option.some.inj (hk.symm.trans hn)
    refine ⟨l', ?_, htoken.trans ht, hset hphase⟩
    exact List.mem_set (List.getElem?_eq_some_iff.mp hn).1 l'
  · refine ⟨x, ?_, ht, hphase⟩
    have hsame : (s.logouts.set k l')[n]? = some x := by
      rw [List.getElem?_set_ne (Ne.symm hnk), hn]
    exact List.mem_of_getElem? hsame

/-- The steps of a logout that leave its key alone. -/
theorem Inv.setLogout (h : s.Inv) (hk : s.logouts[k]? = some l) (htoken : l'.token = l.token)
    (hset : l.phase = .set ∨ l.phase = .answered → l'.phase = .set ∨ l'.phase = .answered)
    (hright : s.LogoutRight l') : (s.setLogout k l').Inv := by
  have hkeySet : ∀ t, s.KeySet t → (s.setLogout k l').KeySet t :=
    fun _ => keySet_setLogout l' hk htoken hset
  have hlater : Later s (s.setLogout k l') :=
    ⟨fun _ => Nat.le_refl _, fun _ => Nat.le_refl _, fun _ _ h => h, fun _ h => h, hkeySet,
      fun _ _ h => h⟩
  refine h.of_later hlater (h.counted.of_same rfl rfl rfl) (fun _ => .inl) (fun _ => .inl)
    (fun x hx => ?_) (fun _ _ _ => .inl) fun _ => .inl
  rcases List.mem_or_eq_of_mem_set hx with hold | rfl
  · exact .inl hold
  · exact .inr (hright.later hlater)

/-- A logout that sets a key which outlives its token. -/
theorem Inv.setKey (h : s.Inv) (hk : s.logouts[k]? = some l) {ttl : ℕ}
    (hok : l.token.exp * 1000 < s.now + ttl * 1000) :
    Inv { s.setLogout k { l with phase := .set } with
      logoutKeys := Function.update s.logoutKeys (l.token.user, l.token.jti)
        (some ⟨(), s.now + ttl * 1000⟩) } := by
  have hl : s.LogoutRight l := h.logouts l (List.mem_of_getElem? hk)
  have hlt : k < s.logouts.length := (List.getElem?_eq_some_iff.mp hk).1
  have hnew : ({ l with phase := .set } : Logout) ∈ s.logouts.set k { l with phase := .set } :=
    List.mem_set hlt _
  -- the key of a token with that number is the key of this token
  have hsame : ∀ t, s.Issued t → t.jti = l.token.jti → t = l.token := by
    intro t ht hjti
    rw [Issued, hjti] at ht
    exact Option.some.inj (ht.symm.trans hl.1)
  have hkey : Covered { s.setLogout k { l with phase := .set } with
      logoutKeys := Function.update s.logoutKeys (l.token.user, l.token.jti)
        (some ⟨(), s.now + ttl * 1000⟩) } l.token :=
    .inr ⟨_, Function.update_self _ _ _, hok⟩
  have hlater : Later s { s.setLogout k { l with phase := .set } with
      logoutKeys := Function.update s.logoutKeys (l.token.user, l.token.jti)
        (some ⟨(), s.now + ttl * 1000⟩) } := by
    refine ⟨fun _ => Nat.le_refl _, fun _ => Nat.le_refl _, fun _ _ h => h, fun _ h => h,
      fun t ht => ?_, fun t ht hcovered => ?_⟩
    · exact keySet_setLogout { l with phase := .set } hk rfl (fun _ => .inl rfl) ht
    · by_cases hjti : t.jti = l.token.jti
      · rw [hsame t ht hjti]
        exact hkey
      · have hne : (t.user, t.jti) ≠ (l.token.user, l.token.jti) := fun heq =>
          hjti (Prod.mk.inj heq).2
        refine hcovered.imp_right fun ⟨key, hget, hlive⟩ => ⟨key, ?_, hlive⟩
        exact (Function.update_of_ne hne _ _).trans hget
  refine h.of_later hlater (h.counted.of_same rfl rfl rfl) (fun _ => .inl) (fun _ => .inl)
    (fun x hx => ?_) (fun u j key hget => ?_) fun _ => .inl
  · rcases List.mem_or_eq_of_mem_set hx with hold | rfl
    · exact .inl hold
    · exact .inr ⟨hl.1, fun _ => hkey⟩
  · by_cases heq : (u, j) = (l.token.user, l.token.jti)
    · obtain ⟨rfl, rfl⟩ := Prod.mk.inj heq
      exact .inr ⟨l.token, rfl, rfl, hl.1, _, hnew, rfl, .inl rfl⟩
    · exact .inl ((Function.update_of_ne heq _ _).symm.trans hget)

theorem Inv.logoutStep (h : s.Inv) {e : SessionEvent} (hk : s.logouts[k]? = some l)
    (hok : ∀ j, e = .setKey j → ∀ ttl, l.phase = .setting ttl →
      l.token.exp * 1000 < s.now + ttl * 1000)
    (hstep : s.logoutStep k l e = some s') : s'.Inv := by
  have hl : s.LogoutRight l := h.logouts l (List.mem_of_getElem? hk)
  unfold Sessions.logoutStep at hstep
  split at hstep
  · split_ifs at hstep with hphase
    cases hstep
    refine h.setLogout hk rfl (fun hset => ?_) ⟨hl.1, fun hset => ?_⟩
    · simp [hphase] at hset
    · simp at hset
  · split at hstep
    · rename_i ttl hphase
      cases hstep
      exact h.setKey hk (hok _ rfl ttl hphase)
    · cases hstep
  · split_ifs at hstep with hphase
    cases hstep
    exact h.setLogout hk rfl (fun _ => .inr rfl) ⟨hl.1, fun _ => hl.2 (.inl hphase)⟩
  · cases hstep

end Logouts

section Checks

variable {r : ℕ} {c c' : UserCheck}

theorem Inv.setCheck (h : s.Inv) (hright : s.CheckRight c') : (s.setCheck r c').Inv := by
  have hlater : Later s (s.setCheck r c') :=
    later_of_same rfl rfl rfl rfl rfl rfl (Nat.le_refl _)
  refine h.of_later hlater (h.counted.of_same rfl rfl rfl) (fun _ => .inl) (fun _ => .inl)
    (fun _ => .inl) (fun _ _ _ => .inl) fun x hx => ?_
  rcases List.mem_or_eq_of_mem_set hx with hold | rfl
  · exact .inl hold
  · exact .inr (hright.later hlater)

/-- The key of a token is there because of a logout with it. -/
theorem keySet_of_keyVisible (h : s.Inv) {t : Token} (ht : s.Issued t)
    (hvisible : s.keyVisible t = true) : s.KeySet t := by
  rw [keyVisible] at hvisible
  cases hkey : s.logoutKeys (t.user, t.jti) with
  | none =>
    rw [hkey] at hvisible
    cases hvisible
  | some key =>
    obtain ⟨t', -, hjti, hissued, hset⟩ := h.keys t.user t.jti key hkey
    rw [Issued, hjti] at hissued
    obtain rfl : t = t' := Option.some.inj (ht.symm.trans hissued)
    exact hset

/-- What the revocation check lets pass. -/
theorem passed_of_not_revoked {epoch : ℕ} {loggedOut : Bool}
    (h : isTokenRevoked c.token epoch loggedOut = false) :
    loggedOut = false ∧ epoch ≤ c.token.ver := by
  obtain ⟨hout, hstale⟩ := Bool.or_eq_false_iff.mp h
  exact ⟨hout, Nat.le_of_not_lt (of_decide_eq_false hstale)⟩

theorem Inv.checkStep (h : s.Inv) {e : SessionEvent} (hr : s.checks[r]? = some c)
    (hstep : s.checkStep r c e = some s') : s'.Inv := by
  obtain ⟨hissued, hepoch, hkey, hpassed⟩ := h.checks c (List.mem_of_getElem? hr)
  unfold Sessions.checkStep at hstep
  split at hstep
  · split_ifs at hstep with hphase
    cases hstep
    refine h.setCheck ⟨hissued, fun epoch he => ?_, hkey, fun hpass => ?_⟩
    · exact (Option.some.inj he).ge
    · exact absurd (hphase.1.symm.trans hpass) (by decide)
  · split_ifs at hstep with hphase
    cases hstep
    refine h.setCheck ⟨hissued, hepoch, fun hout => ?_, fun hpass => ?_⟩
    · exact keySet_of_keyVisible h hissued (Option.some.inj hout)
    · exact absurd (hphase.1.symm.trans hpass) (by decide)
  · split_ifs at hstep with hphase
    split at hstep
    · rename_i epoch loggedOut he hout
      cases hstep
      refine h.setCheck ⟨hissued, hepoch, hkey, fun hpass => ?_⟩
      cases hrevoked : isTokenRevoked c.token epoch loggedOut with
      | true => simp [hrevoked] at hpass
      | false =>
        obtain ⟨rfl, hver⟩ := passed_of_not_revoked hrevoked
        exact ⟨epoch, he, hout, hver⟩
    · cases hstep
  · split_ifs at hstep
    cases hstep
    exact h.setCheck ⟨hissued, hepoch, hkey, fun hpass => nomatch hpass⟩
  · split_ifs at hstep
    cases hstep
    have hchecked : (s.setCheck r { c with phase := .served }).Inv :=
      h.setCheck ⟨hissued, hepoch, hkey, fun hpass => nomatch hpass⟩
    exact hchecked.startChange c.token.user
  · cases hstep

end Checks

section Runs

theorem inv_start : start.Inv where
  counted :=
    { versions := fun _ _ hm => (Nat.le_zero.mp hm).symm
      written_le := fun _ hc => absurd hc List.not_mem_nil
      epoch := fun _ => rfl }
  logins _ hl := absurd hl List.not_mem_nil
  tokens _ ht := absurd ht List.not_mem_nil
  logouts _ hl := absurd hl List.not_mem_nil
  keys _ _ _ hkey := nomatch hkey
  checks _ hc := absurd hc List.not_mem_nil

/-- Every step that is not overtaken keeps the invariant. -/
theorem Inv.step (h : s.Inv) {e : SessionEvent} (hok : s.NotOvertaken e)
    (hstep : s.step e = some s') : s'.Inv := by
  cases e with
  | tick ms =>
    cases hstep
    exact h.of_later (later_of_same rfl rfl rfl rfl rfl rfl (Nat.le_add_right _ _))
      (h.counted.of_same rfl rfl rfl) (fun _ => .inl) (fun _ => .inl) (fun _ => .inl)
      (fun _ _ _ => .inl) fun _ => .inl
  | login user =>
    cases hstep
    refine h.of_later (later_of_same rfl rfl rfl rfl rfl rfl (Nat.le_refl _))
      (h.counted.of_same rfl rfl rfl) (fun l hl => ?_) (fun _ => .inl) (fun _ => .inl)
      (fun _ _ _ => .inl) fun _ => .inl
    refine (List.mem_append.mp hl).imp_right fun hnew => ?_
    rw [List.mem_singleton.mp hnew]
    exact ⟨Nat.le_refl _, fun _ he => nomatch he⟩
  | authenticate i ok =>
    obtain ⟨l, hi, hl⟩ := Option.bind_eq_some_iff.mp hstep
    exact h.loginStep hi (by rintro _ ⟨⟩) hl
  | readEpoch i =>
    obtain ⟨l, hi, hl⟩ := Option.bind_eq_some_iff.mp hstep
    exact h.loginStep hi (fun _ _ => hok l hi) hl
  | sign i =>
    obtain ⟨l, hi, hl⟩ := Option.bind_eq_some_iff.mp hstep
    exact h.loginStep hi (by rintro _ ⟨⟩) hl
  | verifyPassword k ok | updateHash k | bumpEpoch k | answerChange k =>
    obtain ⟨c, hk, hc⟩ := Option.bind_eq_some_iff.mp hstep
    exact h.changeStep hk hc
  | logout t =>
    by_cases hissued : s.Issued t
    swap
    · rw [Sessions.step, if_neg hissued] at hstep
      cases hstep
    rw [Sessions.step, if_pos hissued] at hstep
    cases hstep
    have hlater : Later s { s with
        logouts := s.logouts ++ [⟨t, if t.validAt s.now then .verified else .answered⟩] } := by
      refine ⟨fun _ => Nat.le_refl _, fun _ => Nat.le_refl _, fun _ _ h => h, fun _ h => h,
        fun x hx => ?_, fun _ _ h => h⟩
      obtain ⟨l, hl, hx⟩ := hx
      exact ⟨l, List.mem_append_left _ hl, hx⟩
    refine h.of_later hlater (h.counted.of_same rfl rfl rfl) (fun _ => .inl) (fun _ => .inl)
      (fun l hl => ?_) (fun _ _ _ => .inl) fun _ => .inl
    refine (List.mem_append.mp hl).imp_right fun hnew => ?_
    rw [List.mem_singleton.mp hnew]
    refine ⟨hissued, fun hset => .inl ?_⟩
    -- the logout is answered at once only if the token has expired
    by_contra hvalid
    have hvalid' : t.validAt s.now := Nat.le_of_not_lt hvalid
    simp [hvalid'] at hset
  | computeTtl k =>
    obtain ⟨l, hk, hl⟩ := Option.bind_eq_some_iff.mp hstep
    exact h.logoutStep hk (by rintro _ ⟨⟩) hl
  | setKey k =>
    obtain ⟨l, hk, hl⟩ := Option.bind_eq_some_iff.mp hstep
    exact h.logoutStep hk (fun _ _ ttl hphase => hok l ttl hk hphase) hl
  | answerLogout k =>
    obtain ⟨l, hk, hl⟩ := Option.bind_eq_some_iff.mp hstep
    exact h.logoutStep hk (by rintro _ ⟨⟩) hl
  | request t =>
    by_cases hissued : s.Issued t
    swap
    · rw [Sessions.step, if_neg hissued] at hstep
      cases hstep
    rw [Sessions.step, if_pos hissued] at hstep
    cases hstep
    refine h.of_later (later_of_same rfl rfl rfl rfl rfl rfl (Nat.le_refl _))
      (h.counted.of_same rfl rfl rfl) (fun _ => .inl) (fun _ => .inl) (fun _ => .inl)
      (fun _ _ _ => .inl) fun c hc => ?_
    refine (List.mem_append.mp hc).imp_right fun hnew => ?_
    rw [List.mem_singleton.mp hnew]
    refine ⟨hissued, by rintro _ ⟨⟩, by rintro ⟨⟩, fun hpass => ?_⟩
    have hphase : (if t.validAt s.now then CheckPhase.checking else .rejected) = .passed := hpass
    split_ifs at hphase
  | checkEpoch r | checkKey r | decide r | accept r | change r =>
    obtain ⟨c, hr, hc⟩ := Option.bind_eq_some_iff.mp hstep
    exact h.checkStep hr hc

/-- A token whose key outlives it is not visible to have none while it is valid. -/
theorem keyVisible_of_covered {t : Token} (h : s.Covered t) (hvalid : t.validAt s.now) :
    s.keyVisible t = true := by
  obtain hexpired | ⟨key, hkey, hlive⟩ := h
  · exact absurd hvalid (Nat.not_le_of_lt hexpired)
  · have hnow : s.now < key.expiresAt := Nat.lt_of_le_of_lt hvalid hlive
    rw [keyVisible, hkey, TimedKey.read, if_pos hnow]
    rfl

/-- Revocation is effective at a step that is not overtaken. -/
theorem Inv.revokesAt (h : s.Inv) {e : SessionEvent} (hok : s.NotOvertaken e)
    (hstep : s.step e = some s') : s.RevokesAt e := by
  cases e with
  | accept r =>
    intro c hr
    obtain ⟨hissued, -, -, hpassed⟩ := h.checks c (List.mem_of_getElem? hr)
    obtain ⟨hepoch, hkey⟩ := hok c hr
    have hright : s.TokenRight c.token := h.tokens c.token (List.mem_of_getElem? hissued)
    have hphase : c.phase = .passed := by
      obtain ⟨c', hr', hc⟩ := Option.bind_eq_some_iff.mp hstep
      obtain rfl : c = c' := Option.some.inj (hr.symm.trans hr')
      simp only [Sessions.checkStep] at hc
      split_ifs at hc with hphase
      exact hphase
    obtain ⟨epoch, he, hout, hver⟩ := hpassed hphase
    constructor
    · rintro ⟨d, hd, huser, v, hanswered, hv⟩
      have hwritten : d.written = some v := by rw [PasswordChange.written, hanswered]
      have hbumped : d.hasBumped = true := by rw [PasswordChange.hasBumped, hanswered]
      have hlt := lt_epoch_of_bumped h.counted hright.2 hd huser hbumped hwritten hv
      have hread : epoch = s.epoch c.token.user := Option.some.inj (he.symm.trans hepoch)
      rw [hright.1, hread] at hver
      exact absurd hlt (Nat.not_lt_of_le hver)
    · rintro hvalid ⟨l, hl, htoken, hanswered⟩
      have hcovered := (h.logouts l hl).2 (.inr hanswered)
      rw [htoken] at hcovered
      rw [keyVisible_of_covered hcovered hvalid, hout] at hkey
      cases hkey
  | decide r =>
    intro c epoch loggedOut hr he hout hrevoked
    obtain ⟨hissued, hepoch, hkey, -⟩ := h.checks c (List.mem_of_getElem? hr)
    have hright : s.TokenRight c.token := h.tokens c.token (List.mem_of_getElem? hissued)
    obtain hout' | hstale := Bool.or_eq_true_iff.mp hrevoked
    · exact .inr (hkey (hout' ▸ hout))
    · have hlt : c.token.proven < s.epoch c.token.user := by
        rw [← hright.1]
        exact Nat.lt_of_lt_of_le (of_decide_eq_true hstale) (hepoch epoch he)
      exact .inl (lt_hash_of_lt_epoch h.counted hright.2.1 hlt)
  | _ => trivial

/-- **Revocation**: in every run in which nothing falls in between the steps of a login, a
    logout or a request, revocation is effective at every step. -/
theorem revokes_of_notOvertaken (es : List SessionEvent)
    (h : Machine.Along step NotOvertaken start es) : Machine.Along step RevokesAt start es :=
  Machine.along_of_invariant Inv (fun _ _ _ hs hok hstep => hs.step hok hstep)
    (fun _ _ _ hs hok hstep => hs.revokesAt hok hstep) inv_start h

end Runs

section Defects

/-- The steps of an authenticated request. -/
def authenticated (t : Token) (r : ℕ) : List SessionEvent :=
  [.request t, .checkEpoch r, .checkKey r, .decide r, .accept r]

def first : Token :=
  ⟨"alice", 0, 0, 86400, 0⟩

/-- A login, a password change with its token, and a logout whose key is set a millisecond after its
    lifetime was computed. -/
def undisturbed : List SessionEvent :=
  [.login "alice", .authenticate 0 true, .readEpoch 0, .sign 0] ++ authenticated first 0 ++
    [.change 0, .verifyPassword 0 true, .updateHash 0, .bumpEpoch 0, .answerChange 0,
      .logout first, .computeTtl 0, .tick 1, .setKey 0, .answerLogout 0]

theorem revokes_of_notOvertaken_undisturbed :
    (Machine.exec step start undisturbed).isSome ∧
      Machine.Along step RevokesAt start undisturbed :=
  ⟨by decide, revokes_of_notOvertaken undisturbed (by decide)⟩

/-- A second login verifies the old password while the change of the password goes on, and reads the
    epoch after it was bumped. -/
def overtakenLogin : List SessionEvent :=
  [.login "alice", .authenticate 0 true, .readEpoch 0, .sign 0] ++ authenticated first 0 ++
    [.change 0, .verifyPassword 0 true, .login "alice", .authenticate 1 true, .updateHash 0,
      .bumpEpoch 0, .answerChange 0, .readEpoch 1, .sign 1] ++
    authenticated ⟨"alice", 1, 1, 86400, 0⟩ 1

/-- **The defect**: its token proves the old password, and is accepted after the change has
    answered. -/
theorem not_revokes_overtakenLogin : ¬ Machine.Along step RevokesAt start overtakenLogin := by
  decide

/-- A login verifies the new password before the epoch is bumped. -/
def freshLogin : List SessionEvent :=
  [.login "alice", .authenticate 0 true, .readEpoch 0, .sign 0] ++ authenticated first 0 ++
    [.change 0, .verifyPassword 0 true, .updateHash 0, .login "alice", .authenticate 1 true,
      .readEpoch 1, .sign 1, .bumpEpoch 0, .answerChange 0, .request ⟨"alice", 0, 1, 86400, 1⟩,
      .checkEpoch 1, .checkKey 1, .decide 1]

/-- Its token is rejected although it proves the password that is current. -/
theorem not_revokes_freshLogin : ¬ Machine.Along step RevokesAt start freshLogin := by
  decide

/-- A logout half a second after the login. -/
def earlyLogout : List SessionEvent :=
  [.login "alice", .authenticate 0 true, .readEpoch 0, .sign 0, .tick 500, .logout first,
    .computeTtl 0, .setKey 0, .answerLogout 0, .tick 86399100] ++ authenticated first 0

/-- The lifetime of its key is rounded down, and the token is accepted in the last second before its
    expiry. -/
theorem not_revokes_earlyLogout : ¬ Machine.Along step RevokesAt start earlyLogout := by
  decide

end Defects

end Sessions

end BotHive.Auth
