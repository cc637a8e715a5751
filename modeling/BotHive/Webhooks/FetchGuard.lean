import BotHive.Webhooks.LiteralRanges

/-!
# Requests behind the guard

`fetchWithGuard` follows redirects by itself and checks each URL before it requests it. The
check resolves the name in the URL, and the request resolves it once more. What the network
answers at a hop is given for the two resolutions separately, so an answer may change between
them.

## Main results

- `noPrivateConnection_iff`: no connection goes to a private address exactly if at each hop that
  is requested by name the second resolution leads to none
- `noPrivateConnection_of_same_answers`: that is so where the second resolution only gives
  addresses that the first one gave
-/

namespace BotHive.Webhooks

/-- What `lookup` gives for a name. -/
inductive LookupAnswer where
  | addresses (ips : List String)
  | failed (code : String)
  deriving DecidableEq

structure Response where
  status : ℕ
  location : Option String
  deriving DecidableEq

/-- What the network answers while one URL is checked and requested. -/
structure Hop where
  /-- the resolution that the guard makes -/
  lookup : LookupAnswer
  /-- the addresses that the resolution of the request itself leads to -/
  resolved : List String
  /-- the response, unless the request fails or is aborted -/
  response : Option Response
  deriving DecidableEq

inductive FetchError where
  | thrown (message : String)
  /-- an error of a library function that is passed on -/
  | passedOn (code : String)
  deriving DecidableEq

def maxRedirects : ℕ := 5

section Guard

variable (env : GuardEnv) (parseUrl : String → Option Url)

def dnsCheckEnabled : Bool :=
  env.webhookDnsCheck ≠ some "false"

def assertWebhookUrlAllowed (rawUrl : String) (lookup : LookupAnswer) : Except FetchError Unit :=
  if ¬ isWebhookUrlAllowed env parseUrl rawUrl then
    .error (.thrown "Webhook URL is not allowed (non-http(s) or private/loopback address)")
  else if ¬ dnsCheckEnabled env then .ok ()
  else
    match parseUrl rawUrl with
    | none => .error (.passedOn "ERR_INVALID_URL")
    | some url =>
      let host := normalizeHost url.hostname
      if toIpv4Candidates host ≠ none ∨ isIP host ≠ 0 then .ok ()
      else
        match lookup with
        | .failed code =>
          if code = "ENOTFOUND" then
            .error (.thrown ("Webhook URL host does not resolve: " ++ String.ofList host))
          else .error (.passedOn code)
        | .addresses ips =>
          match ips.find? fun ip => isPrivateIp ip.toList with
          | some ip =>
            .error (.thrown ("Webhook URL host " ++ String.ofList host ++
              " resolves to a private address (" ++ ip ++ ")"))
          | none => .ok ()

end Guard

/-- The host that a request connects to, without the brackets of a URL. -/
def connectHost (hostname : String) : List Char :=
  let chars := hostname.toList
  if chars.head? = some '[' then (chars.drop 1).dropLast else chars

variable (parseUrl : String → Option Url)

/-- The addresses that a request opens connections to: the one in the URL, or those that its
    name is resolved to. -/
def connections (rawUrl : String) (resolved : List String) : List (List Char) :=
  match parseUrl rawUrl with
  | none => []
  | some url =>
    if isIP (connectHost url.hostname) ≠ 0 then [connectHost url.hostname]
    else resolved.map String.toList

variable (env : GuardEnv) (parseRelative : String → String → Option Url)

/-- Where a response leads to from a URL: to the end of the request or to the next URL. -/
def follow (current : String) : Option Response → Except FetchError Response ⊕ String
  | none => .inl (.error (.passedOn "fetch failed"))
  | some res =>
    if 300 ≤ res.status ∧ res.status < 400 then
      match res.location with
      | none => .inl (.error (.thrown "webhook redirected without a Location header"))
      | some location =>
        if location = "" then .inl (.error (.thrown "webhook redirected without a Location header"))
        else
          match parseRelative location current with
          | none => .inl (.error (.thrown "webhook redirected to an invalid URL"))
          | some next => .inr next.href
    else .inl (.ok res)

/-- The loop from the hop `hop` on, with `n` hops left: the connections that are opened, and
    the result. -/
def fetchHops (net : ℕ → Hop) : (n hop : ℕ) → (current : String) →
    List (List Char) × Except FetchError Response
  | 0, _, _ => ([], .error (.thrown "webhook exceeded maximum redirects"))
  | n + 1, hop, current =>
    match assertWebhookUrlAllowed env parseUrl current (net hop).lookup with
    | .error err => ([], .error err)
    | .ok () =>
      match follow parseRelative current (net hop).response with
      | .inl result => (connections parseUrl current (net hop).resolved, result)
      | .inr next =>
        (connections parseUrl current (net hop).resolved ++ (fetchHops net n (hop + 1) next).1,
          (fetchHops net n (hop + 1) next).2)

def fetchWithGuard (net : ℕ → Hop) (url : String) : List (List Char) × Except FetchError Response :=
  fetchHops parseUrl env parseRelative net (maxRedirects + 1) 0 url

/-- The URL that is requested `k` hops after the hop `hop` with the URL `current`: the redirects
    lead to it, and the guard lets it and the ones before it pass. -/
def requestedFrom (net : ℕ → Hop) : (hop : ℕ) → (current : String) → (k : ℕ) → Option String
  | hop, current, 0 =>
    match assertWebhookUrlAllowed env parseUrl current (net hop).lookup with
    | .error _ => none
    | .ok () => some current
  | hop, current, k + 1 =>
    match assertWebhookUrlAllowed env parseUrl current (net hop).lookup with
    | .error _ => none
    | .ok () =>
      match follow parseRelative current (net hop).response with
      | .inl _ => none
      | .inr next => requestedFrom net (hop + 1) next k

/-- At each hop that is requested by name, the resolution of the request leads to no private
    address. -/
def ResolvesPublic (net : ℕ → Hop) (url : String) : Prop :=
  ∀ hop ≤ maxRedirects, ∀ current, requestedFrom parseUrl env parseRelative net 0 url hop =
    some current → ∀ parsed, parseUrl current = some parsed →
      isIP (connectHost parsed.hostname) = 0 →
        ∀ ip ∈ (net hop).resolved, isPrivateIp ip.toList = false

/-- The host of a parsed http URL is the canonical text of an address or no text of one. -/
def CanonicalHosts : Prop :=
  ∀ rawUrl url, parseUrl rawUrl = some url → url.protocol = "http:" ∨ url.protocol = "https:" →
    (∃ a : Address, url.hostname = String.ofList a.host) ∨ isIP (connectHost url.hostname) = 0

section Requests

variable {parseUrl env parseRelative} {net : ℕ → Hop} {url : String}

/-- The connections are those of the URLs that are requested. -/
theorem mem_fetchHops {ip : List Char} {n hop : ℕ} {current : String} :
    ip ∈ (fetchHops parseUrl env parseRelative net n hop current).1 ↔
      ∃ k < n, ∃ u, requestedFrom parseUrl env parseRelative net hop current k = some u ∧
        ip ∈ connections parseUrl u (net (hop + k)).resolved := by
  induction n generalizing hop current with
  | zero =>
    refine ⟨fun h => ?_, fun ⟨k, hk, _⟩ => absurd hk (Nat.not_lt_zero k)⟩
    cases h
  | succ n ih =>
    rw [fetchHops]
    cases hguard : assertWebhookUrlAllowed env parseUrl current (net hop).lookup with
    | error err =>
      refine ⟨fun h => ?_, fun ⟨k, _, u, hu, _⟩ => ?_⟩
      · cases h
      · cases k <;> simp [requestedFrom, hguard] at hu
    | ok _ =>
      have hfirst : requestedFrom parseUrl env parseRelative net hop current 0 = some current := by
        rw [requestedFrom, hguard]
      cases hfollow : follow parseRelative current (net hop).response with
      | inl result =>
        show ip ∈ connections parseUrl current (net hop).resolved ↔ _
        refine ⟨fun h => ⟨0, Nat.succ_pos n, current, hfirst, h⟩, fun ⟨k, _, u, hu, hip⟩ => ?_⟩
        cases k with
        | zero =>
          cases hfirst.symm.trans hu
          exact hip
        | succ k => simp [requestedFrom, hguard, hfollow] at hu
      | inr next =>
        have hlater (k : ℕ) : requestedFrom parseUrl env parseRelative net hop current (k + 1) =
            requestedFrom parseUrl env parseRelative net (hop + 1) next k := by
          rw [requestedFrom, hguard, hfollow]
        show ip ∈ connections parseUrl current (net hop).resolved ++
          (fetchHops parseUrl env parseRelative net n (hop + 1) next).1 ↔ _
        rw [List.mem_append, ih]
        constructor
        · rintro (hip | ⟨k, hk, u, hu, hip⟩)
          · exact ⟨0, Nat.succ_pos n, current, hfirst, hip⟩
          · refine ⟨k + 1, Nat.succ_lt_succ hk, u, (hlater k).trans hu, ?_⟩
            rwa [show hop + (k + 1) = hop + 1 + k by omega]
        · rintro ⟨k, hk, u, hu, hip⟩
          cases k with
          | zero =>
            cases hfirst.symm.trans hu
            exact .inl hip
          | succ k =>
            refine .inr ⟨k, Nat.lt_of_succ_lt_succ hk, u, (hlater k).symm.trans hu, ?_⟩
            rwa [show hop + 1 + k = hop + (k + 1) by omega]

/-- What is requested has passed the guard. -/
theorem guard_of_requestedFrom {k hop : ℕ} {current u : String}
    (h : requestedFrom parseUrl env parseRelative net hop current k = some u) :
    assertWebhookUrlAllowed env parseUrl u (net (hop + k)).lookup = .ok () := by
  induction k generalizing hop current with
  | zero =>
    rw [requestedFrom] at h
    split at h
    · cases h
    · rename_i hguard
      cases h
      exact hguard
  | succ k ih =>
    rw [requestedFrom] at h
    split at h
    · cases h
    · split at h
      · cases h
      · have hnext := ih h
        rwa [show hop + 1 + k = hop + (k + 1) by omega] at hnext

theorem isWebhookUrlAllowed_of_guard {lookup : LookupAnswer} {rawUrl : String}
    (h : assertWebhookUrlAllowed env parseUrl rawUrl lookup = .ok ()) :
    isWebhookUrlAllowed env parseUrl rawUrl = true := by
  by_contra hnot
  rw [assertWebhookUrlAllowed, if_pos hnot] at h
  cases h

/-- A URL that is allowed is an http URL whose host is allowed. -/
theorem allowed_url {rawUrl : String} {parsed : Url}
    (hallow : env.allowPrivateWebhookUrls ≠ some "true") (hparse : parseUrl rawUrl = some parsed)
    (h : isWebhookUrlAllowed env parseUrl rawUrl = true) :
    (parsed.protocol = "http:" ∨ parsed.protocol = "https:") ∧
      isHostAllowed (normalizeHost parsed.hostname) = true := by
  rw [isWebhookUrlAllowed, if_neg hallow, hparse] at h
  simp only at h
  split_ifs at h with hscheme
  refine ⟨?_, h⟩
  by_contra hother
  rw [not_or] at hother
  exact hscheme hother

/-- An address in a URL is connected to as the text that the guard judged. -/
theorem connectHost_host (a : Address) : connectHost (String.ofList a.host) = a.text := by
  cases a with
  | v4 a =>
    have hhead : ¬ a.text.head? = some '[' := by
      intro hopen
      cases isAddressChar_of_mem_dottedText (List.mem_of_mem_head? hopen)
    simp [connectHost, Address.host, Address.text, hhead]
  | v6 a =>
    simp [connectHost, Address.host, Address.text]

/-- **Literals are safe**: an address in a URL that passes the guard is not private. -/
theorem isPrivateIp_of_literal (hhosts : CanonicalHosts parseUrl)
    (hallow : env.allowPrivateWebhookUrls ≠ some "true") {rawUrl : String} {parsed : Url}
    (hparse : parseUrl rawUrl = some parsed)
    (h : isWebhookUrlAllowed env parseUrl rawUrl = true)
    (hliteral : isIP (connectHost parsed.hostname) ≠ 0) :
    isPrivateIp (connectHost parsed.hostname) = false := by
  obtain ⟨hprotocol, hallowed⟩ := allowed_url hallow hparse h
  obtain ⟨a, ha⟩ | hname := hhosts rawUrl parsed hparse hprotocol
  · rw [ha, isHostAllowed_host] at hallowed
    rw [ha, connectHost_host]
    simpa using hallowed
  · exact absurd hname hliteral

end Requests

/-- **Rebinding**: no connection goes to a private address exactly if the resolution of the
    request leads to none at each hop that is requested by name. -/
theorem noPrivateConnection_iff (parseUrl : String → Option Url)
    (parseRelative : String → String → Option Url) (env : GuardEnv) (net : ℕ → Hop) (url : String)
    (hhosts : CanonicalHosts parseUrl) (hallow : env.allowPrivateWebhookUrls ≠ some "true") :
    (∀ ip ∈ (fetchWithGuard parseUrl env parseRelative net url).1, isPrivateIp ip = false) ↔
      ResolvesPublic parseUrl env parseRelative net url := by
  constructor
  · intro h hop hhop current hrequested parsed hparse hname ip hip
    refine h ip.toList (mem_fetchHops.mpr ⟨hop, Nat.lt_succ_of_le hhop, current, hrequested, ?_⟩)
    rw [connections, hparse, Nat.zero_add]
    simp only [hname]
    exact List.mem_map_of_mem hip
  · intro h ip hip
    obtain ⟨hop, hhop, current, hrequested, hmem⟩ := mem_fetchHops.mp hip
    have hallowed := isWebhookUrlAllowed_of_guard (guard_of_requestedFrom hrequested)
    rw [Nat.zero_add] at hmem
    rw [connections] at hmem
    cases hparse : parseUrl current with
    | none =>
      rw [hparse] at hmem
      cases hmem
    | some parsed =>
      rw [hparse] at hmem
      simp only at hmem
      split_ifs at hmem with hliteral
      · rw [List.mem_singleton.mp hmem]
        exact isPrivateIp_of_literal hhosts hallow hparse hallowed hliteral
      · obtain ⟨address, haddress, rfl⟩ := List.mem_map.mp hmem
        exact h hop (Nat.lt_succ_iff.mp hhop) current hrequested parsed hparse
          (not_not.mp hliteral) address haddress

/-- A URL whose name the attacker resolves. -/
def rebindUrl : Url where
  href := "http://rebind.example/"
  protocol := "http:"
  hostname := "rebind.example"

theorem canonicalHosts_rebindUrl : CanonicalHosts (parseOne rebindUrl) := by
  intro rawUrl url hparse _
  unfold parseOne at hparse
  split_ifs at hparse
  cases hparse
  exact .inr (by decide)

/-- A network that resolves the name to one address for the guard and to another one for the
    request. -/
def rebindNet (guardIp requestIp : String) : ℕ → Hop :=
  fun _ => ⟨.addresses [guardIp], [requestIp], some ⟨200, none⟩⟩

theorem noPrivateConnection_iff_rebindUrl :
    (∀ ip ∈ (fetchWithGuard (parseOne rebindUrl) noGuardSettings (fun _ _ => none)
        (rebindNet "8.8.8.8" "8.8.8.8") "http://rebind.example/").1, isPrivateIp ip = false) ↔
      ResolvesPublic (parseOne rebindUrl) noGuardSettings (fun _ _ => none)
        (rebindNet "8.8.8.8" "8.8.8.8") "http://rebind.example/" :=
  noPrivateConnection_iff (parseOne rebindUrl) (fun _ _ => none) noGuardSettings
    (rebindNet "8.8.8.8" "8.8.8.8") "http://rebind.example/" canonicalHosts_rebindUrl (by decide)

/-- The guard sees a public address, and the request connects to the loopback interface. -/
theorem privateConnection_rebindUrl :
    CanonicalHosts (parseOne rebindUrl) ∧ dnsCheckEnabled noGuardSettings = true ∧
      noGuardSettings.allowPrivateWebhookUrls ≠ some "true" ∧
      ¬ ∀ ip ∈ (fetchWithGuard (parseOne rebindUrl) noGuardSettings (fun _ _ => none)
        (rebindNet "8.8.8.8" "127.0.0.1") "http://rebind.example/").1, isPrivateIp ip = false := by
  refine ⟨canonicalHosts_rebindUrl, by decide, by decide, fun h => ?_⟩
  have hconnect : "127.0.0.1".toList ∈ (fetchWithGuard (parseOne rebindUrl) noGuardSettings
      (fun _ _ => none) (rebindNet "8.8.8.8" "127.0.0.1") "http://rebind.example/").1 := by decide
  have hprivate : isPrivateIp "127.0.0.1".toList = true := by decide
  rw [h _ hconnect] at hprivate
  cases hprivate

section SameAnswers

variable {parseUrl env parseRelative} {net : ℕ → Hop} {url : String}

/-- A name that the guard lets pass is resolved to public addresses. -/
theorem lookup_public_of_guard {rawUrl : String} {parsed : Url} {lookup : LookupAnswer}
    (hdns : dnsCheckEnabled env = true) (hparse : parseUrl rawUrl = some parsed)
    (hname : toIpv4Candidates (normalizeHost parsed.hostname) = none ∧
      isIP (normalizeHost parsed.hostname) = 0)
    (h : assertWebhookUrlAllowed env parseUrl rawUrl lookup = .ok ()) :
    ∃ ips, lookup = .addresses ips ∧ ∀ ip ∈ ips, isPrivateIp ip.toList = false := by
  have hallowed := isWebhookUrlAllowed_of_guard h
  rw [assertWebhookUrlAllowed, if_neg (not_not.mpr hallowed), if_neg (not_not.mpr hdns),
    hparse] at h
  simp only [hname.1, hname.2] at h
  cases lookup with
  | failed code =>
    simp only [ne_eq, not_true_eq_false, or_self, if_false] at h
    split_ifs at h
  | addresses ips =>
    refine ⟨ips, rfl, fun ip hip => ?_⟩
    simp only [ne_eq, not_true_eq_false, or_self, if_false] at h
    cases hfind : ips.find? fun ip => isPrivateIp ip.toList with
    | some found =>
      rw [hfind] at h
      cases h
    | none => simpa using List.find?_eq_none.mp hfind ip hip

/-- Where the request resolves a name to addresses that the guard saw, redirects and names lead
    to no private address. -/
theorem noPrivateConnection_of_same_answers (hhosts : CanonicalHosts parseUrl)
    (hallow : env.allowPrivateWebhookUrls ≠ some "true") (hdns : dnsCheckEnabled env = true)
    (hnames : ∀ rawUrl parsed, parseUrl rawUrl = some parsed →
      isIP (connectHost parsed.hostname) = 0 →
        toIpv4Candidates (normalizeHost parsed.hostname) = none ∧
          isIP (normalizeHost parsed.hostname) = 0)
    (hsame : ∀ hop ips, (net hop).lookup = .addresses ips → ∀ ip ∈ (net hop).resolved, ip ∈ ips) :
    ∀ ip ∈ (fetchWithGuard parseUrl env parseRelative net url).1, isPrivateIp ip = false := by
  refine (noPrivateConnection_iff parseUrl parseRelative env net url hhosts hallow).mpr ?_
  intro hop _ current hrequested parsed hparse hname ip hip
  have hguard := guard_of_requestedFrom hrequested
  rw [Nat.zero_add] at hguard
  obtain ⟨ips, hlookup, hpublic⟩ :=
    lookup_public_of_guard hdns hparse (hnames current parsed hparse hname) hguard
  exact hpublic ip (hsame hop ips hlookup ip hip)

end SameAnswers

end BotHive.Webhooks
