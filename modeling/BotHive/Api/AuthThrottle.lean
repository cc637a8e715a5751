import BotHive.Api.TelegramWebhook

/-!
# The throttle of failed authentications

Seen from one IP the receiver is a throttle that counts failures: every step is one of its steps, or
makes it forget the IP. What the throttle keeps for every IP it keeps for the receiver.

## Main results

- `failedAuth_everywhere`: when the failures of a window stay within the limit, and when the map stays
  within its size
- `Webhook.exists_exec_arrivals`: requests fill the map without a bound
-/

namespace BotHive.Api

open Credentials

variable {secrets : WebhookSecrets} {s : Webhook} {failedAuth : FailedAuth} {now : ℤ} {ip : String}
  {request : WebhookRequest}

section Entries

theorem get_of_liveEntry {entry : FailureWindow} (h : liveEntry failedAuth now ip = some entry) :
    failedAuth.get ip = some entry :=
  (Option.filter_eq_some_iff.mp h).1

/-- Counting a failure sets the entry of its IP, and may delete the oldest one. -/
theorem recordAuthFailure_cases (failedAuth : FailedAuth) (now : ℤ) (ip : String) :
    (liveEntry failedAuth now ip = none ∧
        recordAuthFailure failedAuth now ip = failedAuth.set ip ⟨1, now⟩) ∨
      ∃ entry, liveEntry failedAuth now ip = some entry ∧
        (recordAuthFailure failedAuth now ip =
            failedAuth.set ip { entry with count := entry.count + 1 } ∨
          failedAuth.size > 10000 ∧ ∃ oldest, failedAuth.keys.head? = some oldest ∧
            recordAuthFailure failedAuth now ip =
              (failedAuth.set ip { entry with count := entry.count + 1 }).delete oldest) := by
  rw [recordAuthFailure]
  cases hlive : liveEntry failedAuth now ip with
  | none => exact .inl ⟨rfl, rfl⟩
  | some entry =>
    refine .inr ⟨entry, rfl, ?_⟩
    have hget := get_of_liveEntry hlive
    dsimp only
    rw [failedAuth.size_set_of_get_some _ hget, failedAuth.keys_set_of_get_some _ hget]
    split_ifs with hsize
    · cases hhead : failedAuth.keys.head? with
      | none => exact .inl rfl
      | some oldest => exact .inr ⟨hsize, oldest, rfl, rfl⟩
    · exact .inl rfl

end Entries

namespace Webhook

section Views

theorem timesOf_cons (ip ip' : String) (t : ℤ) (l : List (String × ℤ)) :
    timesOf ip ((ip', t) :: l) = if ip = ip' then t :: timesOf ip l else timesOf ip l := by
  rw [timesOf, List.filter_cons]
  simp only [decide_eq_true_eq, eq_comm (a := ip')]
  split <;> rfl

theorem flightsOf_cons (ip : String) (query : BotQuery) (queries : List BotQuery) :
    flightsOf secrets ip (query :: queries) =
      if query.request.fails secrets = true ∧ ip = query.request.ip then
        query.arrivedAt :: flightsOf secrets ip queries
      else flightsOf secrets ip queries := by
  rw [flightsOf, List.filter_cons]
  simp only [Bool.and_eq_true, decide_eq_true_eq, eq_comm (a := query.request.ip)]
  split <;> rfl

/-- A request is an arrival at the throttle of its IP. -/
theorem throttleOf_arrive_self (s : Webhook) (request : WebhookRequest) :
    (s.arrive secrets request).throttleOf secrets request.ip =
      (s.throttleOf secrets request.ip).arrive FAILED_AUTH_WINDOW_MS FAILED_AUTH_MAX
        (request.fails secrets) := by
  have hlive : (s.throttleOf secrets request.ip).live FAILED_AUTH_WINDOW_MS =
      liveEntry s.failedAuth s.now request.ip := rfl
  rw [arrive, authFlooded, windowsFor, KeyThrottle.arrive, hlive]
  cases liveEntry s.failedAuth s.now request.ip with
  | none =>
    cases hfails : request.fails secrets <;>
      simp [throttleOf, timesOf_cons, flightsOf_cons, hfails, KeyThrottle.letThrough,
        KeyThrottle.openWindow]
  | some entry =>
    by_cases hcount : FAILED_AUTH_MAX ≤ entry.count
    · simp [throttleOf, hcount]
    · cases hfails : request.fails secrets <;>
        simp [throttleOf, hcount, timesOf_cons, flightsOf_cons, hfails, KeyThrottle.letThrough]

/-- The other IPs do not notice. -/
theorem throttleOf_arrive_of_ne (s : Webhook) (hne : ip ≠ request.ip) :
    (s.arrive secrets request).throttleOf secrets ip = s.throttleOf secrets ip := by
  rw [arrive, authFlooded, windowsFor]
  cases liveEntry s.failedAuth s.now request.ip with
  | none =>
    cases hfails : request.fails secrets <;>
      simp [throttleOf, timesOf_cons, flightsOf_cons, hne, InsertionMap.get_set_of_ne]
  | some entry =>
    by_cases hcount : FAILED_AUTH_MAX ≤ entry.count
    · simp [throttleOf, hcount]
    · cases hfails : request.fails secrets <;>
        simp [throttleOf, hcount, timesOf_cons, flightsOf_cons, hne]

/-- The failures in flight without those of a query that returns. -/
theorem flightsOf_eraseIdx_perm (secrets : WebhookSecrets) {queries : List BotQuery} {i : ℕ}
    {query : BotQuery} (hquery : queries[i]? = some query) (ip : String) :
    (flightsOf secrets ip queries).Perm
      (if query.request.fails secrets = true ∧ ip = query.request.ip then
        query.arrivedAt :: flightsOf secrets ip (queries.eraseIdx i)
      else flightsOf secrets ip (queries.eraseIdx i)) := by
  obtain ⟨hlt, rfl⟩ := List.getElem?_eq_some_iff.mp hquery
  rw [← flightsOf_cons]
  exact ((List.getElem_cons_eraseIdx_perm hlt).symm.filter _).map _

/-- The receiver after a query has returned, with some entries and windows. -/
def answeredWith (s : Webhook) (i : ℕ) (failedAuth : FailedAuth) (windows : List (String × ℤ)) :
    Webhook :=
  { s with
    failedAuth
    queries := s.queries.eraseIdx i
    replies := s.replies ++ [some .notFound]
    windows }

/-- The entry of an IP after a failure of it was counted. -/
def countedEntry (s : Webhook) (ip : String) : FailureWindow :=
  match liveEntry s.failedAuth s.now ip with
  | none => ⟨1, s.now⟩
  | some entry => { entry with count := entry.count + 1 }

/-- The receiver after a failure was counted, before any entry is deleted. -/
def counted (s : Webhook) (i : ℕ) (ip : String) : Webhook :=
  s.answeredWith i (s.failedAuth.set ip (s.countedEntry ip)) (s.windowsFor ip)

/-- A failure that is counted is recorded by the throttle of its IP. -/
theorem throttleOf_counted_self (s : Webhook) (i : ℕ) (ip : String) :
    (s.counted i ip).throttleOf secrets ip =
      (s.throttleOf secrets ip).record FAILED_AUTH_WINDOW_MS
        (flightsOf secrets ip (s.queries.eraseIdx i)) := by
  have hlive : (s.throttleOf secrets ip).live FAILED_AUTH_WINDOW_MS =
      liveEntry s.failedAuth s.now ip := rfl
  rw [KeyThrottle.record, hlive, counted, countedEntry, windowsFor]
  cases liveEntry s.failedAuth s.now ip with
  | none => simp [throttleOf, answeredWith, timesOf_cons, KeyThrottle.openWindow]
  | some entry => simp [throttleOf, answeredWith]

theorem throttleOf_counted_of_ne (s : Webhook) (i : ℕ) {ip' : String} (hne : ip' ≠ ip) :
    (s.counted i ip).throttleOf secrets ip' =
      { s.throttleOf secrets ip' with
        flights := flightsOf secrets ip' (s.queries.eraseIdx i) } := by
  rw [counted, windowsFor]
  cases liveEntry s.failedAuth s.now ip with
  | none => simp [throttleOf, answeredWith, timesOf_cons, hne, InsertionMap.get_set_of_ne]
  | some entry => simp [throttleOf, answeredWith, hne, InsertionMap.get_set_of_ne]

/-- Deleting an entry makes the throttle of its IP forget it, and no other. -/
theorem throttleOf_delete (s : Webhook) (oldest ip : String) :
    throttleOf secrets { s with failedAuth := s.failedAuth.delete oldest } ip =
      if ip = oldest then (s.throttleOf secrets ip).forget else s.throttleOf secrets ip := by
  rw [throttleOf]
  dsimp only
  rw [InsertionMap.get_delete]
  split_ifs <;> rfl

/-- A query that returns with a failure counts it, and may delete the oldest entry. -/
theorem resume_of_fails {i : ℕ} (hfails : request.fails secrets = true) :
    { s with queries := s.queries.eraseIdx i }.resume secrets request = s.counted i request.ip ∨
      (liveEntry s.failedAuth s.now request.ip).isSome ∧ s.failedAuth.size > 10000 ∧
        ∃ oldest, s.failedAuth.keys.head? = some oldest ∧
          { s with queries := s.queries.eraseIdx i }.resume secrets request =
            { s.counted i request.ip with
              failedAuth := (s.counted i request.ip).failedAuth.delete oldest } := by
  have hauth : authenticate secrets request = .unauthenticated := of_decide_eq_true hfails
  have hresume : { s with queries := s.queries.eraseIdx i }.resume secrets request =
      s.answeredWith i (recordAuthFailure s.failedAuth s.now request.ip)
        (s.windowsFor request.ip) := by
    rw [resume, hauth]
    rfl
  rw [hresume, counted, countedEntry]
  obtain ⟨hnone, hrecord⟩ | ⟨entry, hentry, hrecord⟩ :=
    recordAuthFailure_cases s.failedAuth s.now request.ip
  · rw [hrecord, hnone]
    exact .inl rfl
  · rw [hentry]
    obtain hrecord | ⟨hsize, oldest, holdest, hrecord⟩ := hrecord
    · exact .inl (by rw [hrecord])
    · exact .inr ⟨rfl, hsize, oldest, holdest, by rw [hrecord]; rfl⟩

end Views

section Steps

/-- Every IP is throttled soundly. -/
def Sound (secrets : WebhookSecrets) (s : Webhook) : Prop :=
  ∀ ip, (s.throttleOf secrets ip).Sound FAILED_AUTH_WINDOW_MS FAILED_AUTH_MAX

theorem sound_start (now : ℤ) : (start now).Sound secrets :=
  fun _ => KeyThrottle.sound_unused now

theorem Sound.throttled (h : s.Sound secrets) : s.Throttled :=
  fun ip => (h ip).throttled

theorem Sound.arrive (h : s.Sound secrets) (hfit : FailuresFit secrets s (.request request)) :
    (s.arrive secrets request).Sound secrets := by
  intro ip
  by_cases hip : ip = request.ip
  · subst hip
    rw [throttleOf_arrive_self]
    exact (h request.ip).arrive (by decide) (by decide) hfit
  · rw [throttleOf_arrive_of_ne s hip]
    exact h ip

/-- A query that returns without a failure leaves every throttle as it is. -/
theorem Sound.answered_of_not_fails (h : s.Sound secrets) {i : ℕ} {query : BotQuery}
    (hquery : s.queries[i]? = some query) (hfails : ¬query.request.fails secrets = true) :
    ({ s with queries := s.queries.eraseIdx i }.resume secrets query.request).Sound secrets := by
  intro ip
  have hflights := flightsOf_eraseIdx_perm secrets hquery ip
  rw [if_neg fun hboth => hfails hboth.1] at hflights
  have hsound := (h ip).perm_flights hflights
  rw [WebhookRequest.fails, decide_eq_true_eq] at hfails
  rw [resume]
  cases hauth : authenticate secrets query.request with
  | thrown | invalidPayload | accepted => exact hsound
  | unauthenticated => exact absurd hauth hfails

theorem Sound.counted (h : s.Sound secrets) {i : ℕ} {query : BotQuery}
    (hquery : s.queries[i]? = some query) (hfails : query.request.fails secrets = true) :
    (s.counted i query.request.ip).Sound secrets := by
  intro ip
  have hflights := flightsOf_eraseIdx_perm secrets hquery ip
  by_cases hip : ip = query.request.ip
  · rw [if_pos ⟨hfails, hip⟩, hip] at hflights
    rw [hip, throttleOf_counted_self]
    exact (h _).record hflights
  · rw [if_neg fun hboth => hip hboth.2] at hflights
    rw [throttleOf_counted_of_ne s i hip]
    exact (h ip).perm_flights hflights

/-- Counting a failure opens no window where there is a live one. -/
theorem live_counted {i : ℕ} {e : FailureWindow}
    (hlive : (liveEntry s.failedAuth s.now request.ip).isSome)
    (he : e ∈ ((s.counted i request.ip).throttleOf secrets ip).live FAILED_AUTH_WINDOW_MS) :
    ∃ old ∈ (s.throttleOf secrets ip).live FAILED_AUTH_WINDOW_MS,
      old.windowStart = e.windowStart := by
  by_cases hip : ip = request.ip
  · subst hip
    obtain ⟨entry, hentry⟩ := Option.isSome_iff_exists.mp hlive
    have hlive' : (s.throttleOf secrets request.ip).live FAILED_AUTH_WINDOW_MS = some entry := hentry
    rw [throttleOf_counted_self, KeyThrottle.record, hlive'] at he
    obtain ⟨hmem, -⟩ := KeyThrottle.mem_live.mp he
    obtain rfl := Option.some.inj hmem
    exact ⟨entry, hlive', rfl⟩
  · rw [throttleOf_counted_of_ne s i hip] at he
    exact ⟨e, he, rfl⟩

theorem reached_counted (s : Webhook) (i : ℕ) (ip ip' : String) :
    ((s.counted i ip).throttleOf secrets ip').reached = (s.throttleOf secrets ip').reached :=
  rfl

/-- A query that returns with a failure keeps every throttle sound, if what it deletes counts for
    nothing. -/
theorem Sound.answered_of_fails (h : s.Sound secrets) {i : ℕ} {query : BotQuery}
    (hquery : s.queries[i]? = some query) (hfails : query.request.fails secrets = true)
    (hfit : FailuresFit secrets s (.answered i)) :
    ({ s with queries := s.queries.eraseIdx i }.resume secrets query.request).Sound secrets := by
  have hcounted := h.counted hquery hfails
  obtain hresume | ⟨hlive, hsize, oldest, holdest, hresume⟩ :=
    resume_of_fails (s := s) (i := i) hfails
  · rw [hresume]
    exact hcounted
  · rw [hresume]
    intro ip
    rw [throttleOf_delete]
    split_ifs with hip
    · refine (hcounted ip).forget fun e he => ?_
      obtain ⟨old, hold, hstart⟩ := live_counted hlive he
      have hforget := hfit query hquery hfails hlive hsize oldest holdest
      rw [reached_counted, ← hstart]
      rw [hip] at hold ⊢
      exact (h oldest).none_reached hforget old hold
    · exact hcounted ip

/-- **Step**: a step in which failures fit keeps every throttle sound. -/
theorem Sound.step {s' : Webhook} {action : WebhookAction} (h : s.Sound secrets)
    (hfit : FailuresFit secrets s action) (hstep : s.step secrets action = some s') :
    s'.Sound secrets := by
  cases action with
  | tick ms =>
    obtain rfl := Option.some.inj hstep
    exact fun ip => (h ip).wait ms
  | request request =>
    obtain rfl := Option.some.inj hstep
    exact h.arrive hfit
  | answered i =>
    obtain ⟨query, hquery, rfl⟩ := Option.map_eq_some_iff.mp hstep
    by_cases hfails : query.request.fails secrets = true
    · exact h.answered_of_fails hquery hfails hfit
    · exact h.answered_of_not_fails hquery hfails
  | enqueued i taken =>
    obtain ⟨request, -, rfl⟩ := Option.map_eq_some_iff.mp hstep
    exact h

end Steps

section Sizes

theorem liveEntry_of_get_none (h : failedAuth.get ip = none) (now : ℤ) :
    liveEntry failedAuth now ip = none := by
  rw [liveEntry, h, Option.filter_none]

/-- Setting an entry makes the map larger if the IP had none. -/
theorem size_set_le_iff (hsize : failedAuth.size ≤ 10001) (entry : FailureWindow) :
    (failedAuth.set ip entry).size ≤ 10001 ↔ (failedAuth.get ip = none → failedAuth.size ≤ 10000) := by
  cases hget : failedAuth.get ip with
  | none =>
    rw [failedAuth.size_set_of_get_none _ hget, Nat.succ_le_succ_iff]
    exact ⟨fun h _ => h, fun h => h rfl⟩
  | some old =>
    rw [failedAuth.size_set_of_get_some _ hget]
    exact iff_of_true hsize nofun

theorem size_authFlooded_le_iff (hsize : failedAuth.size ≤ 10001) (now : ℤ) :
    (authFlooded failedAuth now ip).2.size ≤ 10001 ↔
      (failedAuth.get ip = none → failedAuth.size ≤ 10000) := by
  rw [authFlooded]
  cases hlive : liveEntry failedAuth now ip with
  | none => exact size_set_le_iff hsize _
  | some entry =>
    refine iff_of_true hsize fun hnone => ?_
    rw [liveEntry_of_get_none hnone] at hlive
    cases hlive

theorem size_recordAuthFailure_le_iff (hsize : failedAuth.size ≤ 10001) (now : ℤ) :
    (recordAuthFailure failedAuth now ip).size ≤ 10001 ↔
      (failedAuth.get ip = none → failedAuth.size ≤ 10000) := by
  obtain ⟨-, hrecord⟩ | ⟨entry, hentry, hrecord⟩ := recordAuthFailure_cases failedAuth now ip
  · rw [hrecord]
    exact size_set_le_iff hsize _
  · have hget := get_of_liveEntry hentry
    have hset := failedAuth.size_set_of_get_some { entry with count := entry.count + 1 } hget
    have hle : (recordAuthFailure failedAuth now ip).size ≤ failedAuth.size := by
      obtain hrecord | ⟨-, oldest, -, hrecord⟩ := hrecord <;> rw [hrecord]
      · exact hset.le
      · rw [InsertionMap.size, InsertionMap.entries_delete]
        exact (List.length_filter_le _ _).trans hset.le
    refine iff_of_true (hle.trans hsize) fun hnone => ?_
    rw [hget] at hnone
    cases hnone

theorem failedAuth_arrive (s : Webhook) (request : WebhookRequest) :
    (s.arrive secrets request).failedAuth = (authFlooded s.failedAuth s.now request.ip).2 := by
  rw [arrive]
  dsimp only
  split <;> rfl

theorem failedAuth_resume (s : Webhook) (request : WebhookRequest) :
    (s.resume secrets request).failedAuth =
      if request.fails secrets then recordAuthFailure s.failedAuth s.now request.ip
      else s.failedAuth := by
  rw [resume, WebhookRequest.fails]
  cases authenticate secrets request <;> rfl

/-- A step keeps the map within its size exactly if it adds no entry to a map that is full. -/
theorem bounded_step_iff {s' : Webhook} {action : WebhookAction} (h : s.Bounded)
    (hstep : s.step secrets action = some s') : s'.Bounded ↔ EntriesFit secrets s action := by
  cases action with
  | tick ms =>
    obtain rfl := Option.some.inj hstep
    exact iff_of_true h trivial
  | request request =>
    obtain rfl := Option.some.inj hstep
    rw [Bounded, failedAuth_arrive]
    exact size_authFlooded_le_iff h s.now
  | answered i =>
    obtain ⟨query, hquery, rfl⟩ := Option.map_eq_some_iff.mp hstep
    rw [Bounded, failedAuth_resume, EntriesFit, hquery]
    simp only [Option.mem_some_iff, forall_eq']
    by_cases hfails : query.request.fails secrets = true
    · rw [if_pos hfails, forall_prop_of_true hfails]
      exact size_recordAuthFailure_le_iff h s.now
    · rw [if_neg hfails]
      exact iff_of_true h fun h => absurd h hfails
  | enqueued i taken =>
    obtain ⟨request, -, rfl⟩ := Option.map_eq_some_iff.mp hstep
    exact iff_of_true h trivial

/-- Requests of new IPs add an entry each, whether they fail or succeed later. -/
theorem exists_exec_arrivals {requests : List WebhookRequest}
    (hnodup : (requests.map WebhookRequest.ip).Nodup)
    (hnew : ∀ request ∈ requests, s.failedAuth.get request.ip = none) :
    ∃ t, Machine.exec (step secrets) s (requests.map .request) = some t ∧
      t.failedAuth.size = s.failedAuth.size + requests.length := by
  induction requests generalizing s with
  | nil => exact ⟨s, rfl, rfl⟩
  | cons request rest ih =>
    rw [List.map_cons, List.nodup_cons] at hnodup
    have hget := hnew request List.mem_cons_self
    have hfailedAuth : (s.arrive secrets request).failedAuth =
        s.failedAuth.set request.ip ⟨0, s.now⟩ := by
      rw [failedAuth_arrive, authFlooded, liveEntry_of_get_none hget]
    have hnew' : ∀ other ∈ rest, (s.arrive secrets request).failedAuth.get other.ip = none := by
      intro other hother
      have hne : other.ip ≠ request.ip := fun heq =>
        hnodup.1 (List.mem_map.mpr ⟨other, hother, heq⟩)
      rw [hfailedAuth, InsertionMap.get_set_of_ne _ _ hne]
      exact hnew other (List.mem_cons_of_mem _ hother)
    obtain ⟨t, hexec, hsize⟩ := ih hnodup.2 hnew'
    refine ⟨t, hexec, ?_⟩
    rw [hsize, hfailedAuth, s.failedAuth.size_set_of_get_none _ hget, List.length_cons]
    omega

end Sizes

end Webhook

/-- **Failed authentications**: in every run in which failures fit, at most `FAILED_AUTH_MAX` requests
    of an IP that fail reach the database within a window, whatever the other IPs do; and the map
    stays within its size exactly in the runs in which entries fit. -/
theorem failedAuth_everywhere (secrets : WebhookSecrets) (now : ℤ) (actions : List WebhookAction) :
    (Machine.Along (Webhook.step secrets) (FailuresFit secrets) (Webhook.start now) actions →
        Machine.Everywhere (Webhook.step secrets) Webhook.Throttled (Webhook.start now) actions) ∧
      (Machine.Everywhere (Webhook.step secrets) Webhook.Bounded (Webhook.start now) actions ↔
        Machine.Along (Webhook.step secrets) (EntriesFit secrets) (Webhook.start now) actions) := by
  constructor
  · intro h
    refine Machine.everywhere_of_invariant (Webhook.Sound secrets) Webhook.Throttled ?_
      (fun _ hs => hs.throttled) (Webhook.sound_start now) h
    exact fun s action s' hs hfit hstep => hs.step hfit hstep
  · refine Machine.everywhere_iff_along (fun s action s' hs hstep => ?_) (Nat.zero_le _)
    exact Webhook.bounded_step_iff hs hstep

section Concurrent

/-- A request for a bot that is not stored. -/
def unknownBot (ip : String) : WebhookRequest :=
  ⟨ip, "none", "slug", none, .null, .missing⟩

theorem separated_v1 : ':' ∉ "v1".toList := by decide

/-- A cipher that seals nothing, without keys. -/
def noSecrets : WebhookSecrets where
  aes := ⟨fun _ _ _ => ⟨[], []⟩, fun _ _ _ => none⟩
  registry := ⟨"v1", "", .empty, separated_v1⟩
  sha256 := id

/-- A request that fails, and another one of the same IP after its failure was counted. -/
theorem throttled_unknownBot :
    Machine.Everywhere (Webhook.step noSecrets) Webhook.Throttled (Webhook.start 0)
      [.request (unknownBot "a"), .answered 0, .tick 5, .request (unknownBot "a")] := by
  exact (failedAuth_everywhere noSecrets 0 _).1 (by decide)

/-- Twenty-one requests of one IP arrive before the first query has returned. -/
theorem not_throttled_concurrent :
    ¬Machine.Everywhere (Webhook.step noSecrets) Webhook.Throttled (Webhook.start 0)
      (List.replicate 21 (.request (unknownBot "a"))) := by
  intro h
  have hend : ∃ t, Machine.exec (Webhook.step noSecrets) (Webhook.start 0)
        (List.replicate 21 (.request (unknownBot "a"))) = some t ∧
      Webhook.timesOf "a" t.windows = [0] ∧
      Webhook.timesOf "a" t.reached = List.replicate 21 0 := ⟨_, rfl, by decide, by decide⟩
  obtain ⟨t, hexec, hwindows, hreached⟩ := hend
  have hcount := h.at_end hexec "a" 0 (by rw [hwindows]; exact List.mem_singleton_self 0)
  rw [hreached] at hcount
  exact absurd hcount (by decide)

end Concurrent

end BotHive.Api
