import BotHive.Auth.Sessions

/-!
# Effective revocation

The versions of a hash that were written number the password changes of a user, and the epoch
counts those that have bumped it. A token is settled when the changes up to the one that it
proves have all bumped: its `ver` is then that version, a later bump makes the epoch greater, and
without one the epoch is its `ver`.

What an event leaves of the earlier states is summed up in `Later`; each item of a list is
shown right when it is added or replaced, and stays right later.

## Main results

- `lt_epoch_of_bumped`, `lt_hash_of_lt_epoch`: the epoch is greater than a settled version exactly
  after a later change
- `Inv.of_later`: the invariant of sessions in a later state, from what is new there
-/

namespace BotHive.Auth

section Counting

variable {α : Type*} {l : List α} {p q : α → Bool} {x y : α} {k : ℕ}

theorem forall_mem_set {P : α → Prop} (h : ∀ z ∈ l, P z) (hy : P y) : ∀ z ∈ l.set k y, P z := by
  intro z hz
  rcases List.mem_or_eq_of_mem_set hz with hmem | rfl
  · exact h z hmem
  · exact hy

theorem forall_mem_concat {P : α → Prop} (h : ∀ z ∈ l, P z) (hy : P y) : ∀ z ∈ l ++ [y], P z := by
  intro z hz
  rcases List.mem_append.mp hz with hmem | hlast
  · exact h z hmem
  · rw [List.mem_singleton.mp hlast]
    exact hy

/-- A replaced item counts for itself only. -/
theorem countP_set_add (hx : l[k]? = some x) :
    (l.set k y).countP p + (if p x then 1 else 0) = l.countP p + (if p y then 1 else 0) := by
  obtain ⟨hlt, hget⟩ := List.getElem?_eq_some_iff.mp hx
  rw [List.countP_set hlt, hget]
  by_cases hp : p x
  · have hpos : 0 < l.countP p := List.countP_pos_iff.mpr ⟨x, hget ▸ List.getElem_mem hlt, hp⟩
    simp only [hp, if_true]
    omega
  · simp only [hp, Bool.false_eq_true, if_false]
    omega

/-- A weaker condition that one more item satisfies counts more. -/
theorem countP_lt_countP (hpq : ∀ z ∈ l, p z → q z) (hx : x ∈ l) (hq : q x) (hp : ¬ p x) :
    l.countP p < l.countP q := by
  induction l with
  | nil => cases hx
  | cons z rest ih =>
    have hrest : ∀ z ∈ rest, p z → q z := fun z hz => hpq z (List.mem_cons_of_mem _ hz)
    have hle : rest.countP p ≤ rest.countP q := List.countP_mono_left hrest
    rw [List.countP_cons, List.countP_cons]
    rcases List.mem_cons.mp hx with rfl | hmem
    · simp only [hp, hq, if_true, Bool.false_eq_true, if_false]
      omega
    · have hlt := ih hrest hmem
      have hz := hpq z List.mem_cons_self
      by_cases hpz : p z
      · simp only [hpz, hz hpz, if_true]
        omega
      · simp only [hpz, Bool.false_eq_true, if_false]
        omega

end Counting

namespace Sessions

variable {s s' : Sessions}

section Epochs

/-- Whether a change wrote a version up to `m`. -/
def writtenUpTo (m : ℕ) (c : PasswordChange) : Bool :=
  c.written.any (· ≤ m)

/-- The changes number the versions of the hash, and the epoch counts those that have bumped. -/
structure Counted (s : Sessions) : Prop where
  versions : ∀ u m, m ≤ s.hash u →
    s.changes.countP (fun c => decide (c.user = u) && writtenUpTo m c) = m
  written_le : ∀ c ∈ s.changes, ∀ v, c.written = some v → v ≤ s.hash c.user
  epoch : ∀ u, s.epoch u = s.changes.countP fun c => decide (c.user = u) && c.hasBumped

/-- The changes up to a version of the hash have all bumped the epoch. -/
def Settled (s : Sessions) (u : String) (m : ℕ) : Prop :=
  m ≤ s.hash u ∧ ∀ c ∈ s.changes, c.user = u → ∀ v, c.written = some v → v ≤ m →
    c.hasBumped = true

theorem writtenUpTo_iff {m : ℕ} {c : PasswordChange} :
    writtenUpTo m c = true ↔ ∃ v, c.written = some v ∧ v ≤ m := by
  rw [writtenUpTo]
  cases c.written <;> simp

theorem written_of_hasBumped {c : PasswordChange} (h : c.hasBumped = true) :
    ∃ v, c.written = some v := by
  obtain ⟨user, phase⟩ := c
  cases phase with
  | bumped v => exact ⟨v, rfl⟩
  | answered v => exact ⟨v, rfl⟩
  | _ => cases h

theorem bumped_of_writtenUpTo {u : String} {m : ℕ} (h : s.Settled u m) :
    ∀ c ∈ s.changes, (decide (c.user = u) && writtenUpTo m c) = true →
      (decide (c.user = u) && c.hasBumped) = true := by
  intro c hc hwritten
  obtain ⟨huser, hupTo⟩ := Bool.and_eq_true_iff.mp hwritten
  obtain ⟨v, hv, hle⟩ := writtenUpTo_iff.mp hupTo
  exact Bool.and_eq_true_iff.mpr ⟨huser, h.2 c hc (of_decide_eq_true huser) v hv hle⟩

theorem le_epoch (hs : s.Counted) {u : String} {m : ℕ} (h : s.Settled u m) : m ≤ s.epoch u := by
  have hle := List.countP_mono_left (bumped_of_writtenUpTo h)
  rwa [hs.versions u m h.1, ← hs.epoch u] at hle

/-- A later change that has bumped the epoch makes it greater. -/
theorem lt_epoch_of_bumped (hs : s.Counted) {u : String} {m v : ℕ} (h : s.Settled u m)
    {c : PasswordChange} (hc : c ∈ s.changes) (huser : c.user = u) (hbumped : c.hasBumped = true)
    (hwritten : c.written = some v) (hv : m < v) : m < s.epoch u := by
  have hlater : ¬ (decide (c.user = u) && writtenUpTo m c) = true := by
    intro hupTo
    obtain ⟨w, hw, hle⟩ := writtenUpTo_iff.mp (Bool.and_eq_true_iff.mp hupTo).2
    obtain rfl : v = w := Option.some.inj (hwritten.symm.trans hw)
    exact absurd hle (Nat.not_le_of_lt hv)
  have hcounts : (decide (c.user = u) && c.hasBumped) = true :=
    Bool.and_eq_true_iff.mpr ⟨decide_eq_true huser, hbumped⟩
  have hlt := countP_lt_countP (bumped_of_writtenUpTo h) hc hcounts hlater
  rwa [hs.versions u m h.1, ← hs.epoch u] at hlt

/-- An epoch that is greater than a version was bumped by a later change. -/
theorem bumped_of_lt_epoch (hs : s.Counted) {u : String} {m : ℕ} (hm : m ≤ s.hash u)
    (h : m < s.epoch u) :
    ∃ c ∈ s.changes, c.user = u ∧ c.hasBumped = true ∧ ∃ v, c.written = some v ∧ m < v := by
  by_contra hnone
  have hupTo : ∀ c ∈ s.changes, (decide (c.user = u) && c.hasBumped) = true →
      (decide (c.user = u) && writtenUpTo m c) = true := by
    intro c hc hcounts
    obtain ⟨huser, hbumped⟩ := Bool.and_eq_true_iff.mp hcounts
    obtain ⟨v, hv⟩ := written_of_hasBumped hbumped
    refine Bool.and_eq_true_iff.mpr ⟨huser, writtenUpTo_iff.mpr ⟨v, hv, ?_⟩⟩
    by_contra hlt
    exact hnone ⟨c, hc, of_decide_eq_true huser, hbumped, v, hv, Nat.lt_of_not_le hlt⟩
  have hle := List.countP_mono_left hupTo
  rw [hs.versions u m hm, ← hs.epoch u] at hle
  omega

theorem lt_hash_of_lt_epoch (hs : s.Counted) {u : String} {m : ℕ} (hm : m ≤ s.hash u)
    (h : m < s.epoch u) : m < s.hash u := by
  obtain ⟨c, hc, rfl, -, v, hv, hlt⟩ := bumped_of_lt_epoch hs hm h
  exact Nat.lt_of_lt_of_le hlt (hs.written_le c hc v hv)

end Epochs

section Invariant

/-- The key of a token outlives it, or the token has expired. -/
def Covered (s : Sessions) (t : Token) : Prop :=
  t.exp * 1000 < s.now ∨
    ∃ key, s.logoutKeys (t.user, t.jti) = some key ∧ t.exp * 1000 < key.expiresAt

/-- What every later state keeps of a state. -/
structure Later (s s' : Sessions) : Prop where
  hash : ∀ u, s.hash u ≤ s'.hash u
  epoch : ∀ u, s.epoch u ≤ s'.epoch u
  settled : ∀ u m, s.Settled u m → s'.Settled u m
  issued : ∀ t, s.Issued t → s'.Issued t
  keySet : ∀ t, s.KeySet t → s'.KeySet t
  covered : ∀ t, s.Issued t → s.Covered t → s'.Covered t

def LoginRight (s : Sessions) (l : Login) : Prop :=
  l.version ≤ s.hash l.user ∧
    ∀ epoch, l.phase = .signing epoch → epoch = l.version ∧ s.Settled l.user l.version

def TokenRight (s : Sessions) (t : Token) : Prop :=
  t.ver = t.proven ∧ s.Settled t.user t.proven

def LogoutRight (s : Sessions) (l : Logout) : Prop :=
  s.Issued l.token ∧ (l.phase = .set ∨ l.phase = .answered → s.Covered l.token)

def CheckRight (s : Sessions) (c : UserCheck) : Prop :=
  s.Issued c.token ∧ (∀ epoch, c.epoch = some epoch → epoch ≤ s.epoch c.token.user) ∧
    (c.loggedOut = some true → s.KeySet c.token) ∧
    (c.phase = .passed →
      ∃ epoch, c.epoch = some epoch ∧ c.loggedOut = some false ∧ epoch ≤ c.token.ver)

/-- The invariant of sessions. -/
structure Inv (s : Sessions) : Prop where
  counted : s.Counted
  logins : ∀ l ∈ s.logins, s.LoginRight l
  tokens : ∀ t ∈ s.tokens, s.TokenRight t
  logouts : ∀ l ∈ s.logouts, s.LogoutRight l
  keys : ∀ u j key, s.logoutKeys (u, j) = some key →
    ∃ t, t.user = u ∧ t.jti = j ∧ s.Issued t ∧ s.KeySet t
  checks : ∀ c ∈ s.checks, s.CheckRight c

theorem LoginRight.later {l : Login} (h : s.LoginRight l) (hl : Later s s') : s'.LoginRight l :=
  ⟨h.1.trans (hl.hash l.user),
    fun epoch he => ⟨(h.2 epoch he).1, hl.settled _ _ (h.2 epoch he).2⟩⟩

theorem TokenRight.later {t : Token} (h : s.TokenRight t) (hl : Later s s') : s'.TokenRight t :=
  ⟨h.1, hl.settled _ _ h.2⟩

theorem LogoutRight.later {l : Logout} (h : s.LogoutRight l) (hl : Later s s') :
    s'.LogoutRight l :=
  ⟨hl.issued _ h.1, fun hset => hl.covered _ h.1 (h.2 hset)⟩

theorem CheckRight.later {c : UserCheck} (h : s.CheckRight c) (hl : Later s s') :
    s'.CheckRight c :=
  ⟨hl.issued _ h.1, fun epoch he => (h.2.1 epoch he).trans (hl.epoch _),
    fun hout => hl.keySet _ (h.2.2.1 hout), h.2.2.2⟩

/-- The states that differ in nothing that `Later` looks at. -/
theorem later_of_same (hhash : s'.hash = s.hash) (hepoch : s'.epoch = s.epoch)
    (hchanges : s'.changes = s.changes) (htokens : s'.tokens = s.tokens)
    (hlogouts : s'.logouts = s.logouts) (hkeys : s'.logoutKeys = s.logoutKeys)
    (hnow : s.now ≤ s'.now) : Later s s' where
  hash u := by rw [hhash]
  epoch u := by rw [hepoch]
  settled u m h := by
    unfold Settled at h ⊢
    rwa [hhash, hchanges]
  issued t h := by
    unfold Issued at h ⊢
    rwa [htokens]
  keySet t h := by
    unfold KeySet at h ⊢
    rwa [hlogouts]
  covered t _ h := by
    unfold Covered at h ⊢
    rw [hkeys]
    exact h.imp_left fun hlt => Nat.lt_of_lt_of_le hlt hnow

theorem Counted.of_same (h : s.Counted) (hhash : s'.hash = s.hash) (hepoch : s'.epoch = s.epoch)
    (hchanges : s'.changes = s.changes) : s'.Counted where
  versions u m hm := by
    rw [hchanges]
    exact h.versions u m (hhash ▸ hm)
  written_le c hc v hv := by
    rw [hhash]
    exact h.written_le c (hchanges ▸ hc) v hv
  epoch u := by
    rw [hepoch, hchanges]
    exact h.epoch u

/-- The invariant of a later state, from what is new in it. -/
theorem Inv.of_later (h : s.Inv) (hl : Later s s') (hcounted : s'.Counted)
    (hlogins : ∀ l ∈ s'.logins, l ∈ s.logins ∨ s'.LoginRight l)
    (htokens : ∀ t ∈ s'.tokens, t ∈ s.tokens ∨ s'.TokenRight t)
    (hlogouts : ∀ l ∈ s'.logouts, l ∈ s.logouts ∨ s'.LogoutRight l)
    (hkeys : ∀ u j key, s'.logoutKeys (u, j) = some key → s.logoutKeys (u, j) = some key ∨
      ∃ t, t.user = u ∧ t.jti = j ∧ s'.Issued t ∧ s'.KeySet t)
    (hchecks : ∀ c ∈ s'.checks, c ∈ s.checks ∨ s'.CheckRight c) : s'.Inv where
  counted := hcounted
  logins l hl' := (hlogins l hl').elim (fun hold => (h.logins l hold).later hl) id
  tokens t ht := (htokens t ht).elim (fun hold => (h.tokens t hold).later hl) id
  logouts l hl' := (hlogouts l hl').elim (fun hold => (h.logouts l hold).later hl) id
  keys u j key hkey := by
    refine (hkeys u j key hkey).elim (fun hold => ?_) id
    obtain ⟨t, huser, hjti, hissued, hset⟩ := h.keys u j key hold
    exact ⟨t, huser, hjti, hl.issued t hissued, hl.keySet t hset⟩
  checks c hc := (hchecks c hc).elim (fun hold => (h.checks c hold).later hl) id

end Invariant

section Steps

variable {c c' : PasswordChange} {k : ℕ}

/-- A change that keeps what it wrote and does not take back its bump. -/
theorem Settled.set (hk : s.changes[k]? = some c) (hchanges : s'.changes = s.changes.set k c')
    (hhash : s'.hash = s.hash) (huser : c'.user = c.user) (hwritten : c'.written = c.written)
    (hbumped : c.hasBumped = true → c'.hasBumped = true) {u : String} {m : ℕ}
    (h : s.Settled u m) : s'.Settled u m := by
  refine ⟨hhash ▸ h.1, ?_⟩
  rw [hchanges]
  refine forall_mem_set h.2 fun hu v hv hle => hbumped ?_
  exact h.2 c (List.mem_of_getElem? hk) (huser ▸ hu) v (hwritten ▸ hv) hle

theorem Counted.set (h : s.Counted) (hk : s.changes[k]? = some c)
    (hchanges : s'.changes = s.changes.set k c') (hhash : s'.hash = s.hash)
    (huser : c'.user = c.user) (hwritten : c'.written = c.written)
    (hepoch : ∀ u, s'.epoch u + (if c.user = u ∧ c.hasBumped then 1 else 0) =
      s.epoch u + (if c.user = u ∧ c'.hasBumped then 1 else 0)) : s'.Counted where
  versions u m hm := by
    have hadd := countP_set_add (p := fun c => decide (c.user = u) && writtenUpTo m c)
      (y := c') hk
    have hsame : writtenUpTo m c' = writtenUpTo m c := by
      rw [writtenUpTo, hwritten, writtenUpTo]
    rw [huser, hsame, Nat.add_right_cancel_iff] at hadd
    rw [hchanges, hadd]
    exact h.versions u m (hhash ▸ hm)
  written_le := by
    rw [hchanges, hhash]
    refine forall_mem_set h.written_le fun v hv => ?_
    rw [huser]
    exact h.written_le c (List.mem_of_getElem? hk) v (hwritten ▸ hv)
  epoch u := by
    have hadd := countP_set_add (p := fun c => decide (c.user = u) && c.hasBumped) (y := c') hk
    have hu := hepoch u
    rw [h.epoch u] at hu
    simp only [Bool.and_eq_true, decide_eq_true_eq, huser] at hadd
    rw [hchanges]
    omega

/-- A password change in the database: the next version is written. -/
theorem Counted.updateHash (h : s.Counted) (hk : s.changes[k]? = some c)
    (hnone : c.written = none) (hold : c.hasBumped = false) (hnew : c'.hasBumped = false)
    (huser : c'.user = c.user) (hwritten : c'.written = some (s.hash c.user + 1))
    (hchanges : s'.changes = s.changes.set k c')
    (hhash : s'.hash = Function.update s.hash c.user (s.hash c.user + 1))
    (hepoch : s'.epoch = s.epoch) : s'.Counted where
  versions u m hm := by
    have hadd := countP_set_add (p := fun c => decide (c.user = u) && writtenUpTo m c)
      (y := c') hk
    have hc : writtenUpTo m c = false := by
      rw [writtenUpTo, hnone]
      rfl
    have hc' : writtenUpTo m c' = decide (s.hash c.user + 1 ≤ m) := by
      rw [writtenUpTo, hwritten]
      rfl
    simp only [hc, hc', Bool.and_false, Bool.and_eq_true, decide_eq_true_eq, huser,
      Bool.false_eq_true, if_false, Nat.add_zero] at hadd
    rw [hchanges, hadd]
    rw [hhash] at hm
    by_cases hu : c.user = u
    · subst hu
      rw [Function.update_self] at hm
      by_cases hlast : m ≤ s.hash c.user
      · rw [h.versions c.user m hlast, if_neg (by omega)]
        rfl
      · -- no change has written the new version before
        have hall : s.changes.countP (fun d => decide (d.user = c.user) && writtenUpTo m d) =
            s.changes.countP fun d => decide (d.user = c.user) && writtenUpTo (s.hash c.user) d := by
          refine List.countP_congr fun d hd => ?_
          simp only [Bool.and_eq_true, decide_eq_true_eq, writtenUpTo_iff]
          refine and_congr_right fun hduser => exists_congr fun v => and_congr_right fun hv => ?_
          have hle := h.written_le d hd v hv
          rw [hduser] at hle
          omega
        rw [hall, h.versions c.user _ (Nat.le_refl _), if_pos ⟨rfl, by omega⟩]
        omega
    · rw [Function.update_of_ne (Ne.symm hu)] at hm
      rw [if_neg (fun hboth => hu hboth.1)]
      exact h.versions u m hm
  written_le := by
    rw [hchanges, hhash]
    refine forall_mem_set (fun d hd v hv => (h.written_le d hd v hv).trans ?_) fun v hv => ?_
    · by_cases hd' : d.user = c.user
      · rw [hd', Function.update_self]
        exact Nat.le_succ _
      · rw [Function.update_of_ne hd']
    · rw [hwritten] at hv
      rw [huser, Function.update_self]
      exact (Option.some.inj hv).ge
  epoch u := by
    have hadd := countP_set_add (p := fun c => decide (c.user = u) && c.hasBumped) (y := c') hk
    simp only [hold, hnew, Bool.and_false, Bool.false_eq_true, if_false, Nat.add_zero] at hadd
    rw [hepoch, hchanges, hadd]
    exact h.epoch u

theorem Settled.updateHash (hchanges : s'.changes = s.changes.set k c')
    (huser : c'.user = c.user) (hwritten : c'.written = some (s.hash c.user + 1))
    (hhash : s'.hash = Function.update s.hash c.user (s.hash c.user + 1)) {u : String} {m : ℕ}
    (h : s.Settled u m) : s'.Settled u m := by
  constructor
  · rw [hhash]
    by_cases hu : u = c.user
    · rw [hu, Function.update_self]
      exact (hu ▸ h.1).trans (Nat.le_succ _)
    · rw [Function.update_of_ne hu]
      exact h.1
  · rw [hchanges]
    refine forall_mem_set h.2 fun hu v hv hle => ?_
    -- the new version is above the settled one
    rw [hwritten] at hv
    have hm := h.1
    rw [← hu, huser] at hm
    have hlt : s.hash c.user + 1 ≤ m := (Option.some.inj hv) ▸ hle
    omega

/-- A new change has not written yet. -/
theorem Counted.concat (h : s.Counted) (hnone : c.written = none) (hold : c.hasBumped = false)
    (hchanges : s'.changes = s.changes ++ [c]) (hhash : s'.hash = s.hash)
    (hepoch : s'.epoch = s.epoch) : s'.Counted where
  versions u m hm := by
    have hc : writtenUpTo m c = false := by
      rw [writtenUpTo, hnone]
      rfl
    rw [hchanges, List.countP_append, h.versions u m (hhash ▸ hm)]
    simp [hc]
  written_le := by
    rw [hchanges, hhash]
    refine forall_mem_concat h.written_le fun v hv => ?_
    rw [hnone] at hv
    cases hv
  epoch u := by
    rw [hepoch, hchanges, List.countP_append, h.epoch u]
    simp [hold]

theorem Settled.concat (hnone : c.written = none) (hchanges : s'.changes = s.changes ++ [c])
    (hhash : s'.hash = s.hash) {u : String} {m : ℕ} (h : s.Settled u m) : s'.Settled u m := by
  refine ⟨hhash ▸ h.1, ?_⟩
  rw [hchanges]
  refine forall_mem_concat h.2 fun _ v hv => ?_
  rw [hnone] at hv
  cases hv

end Steps

end Sessions

end BotHive.Auth
