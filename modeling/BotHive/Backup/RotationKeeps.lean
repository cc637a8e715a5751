import BotHive.Backup.RotateEncryption

/-!
# What a rotation of the encryption key keeps

After a rotation every row that its loops have reached is settled: another rotation writes
none of them. Accounts, bots and proxies keep their secrets whatever they hold. A webhook
keeps its secret unless the loop gives the secret up or does not reach it.

## Main results

- `Rotation.rotateEncryption_again`: a second rotation writes nothing
- `Rotation.webhookKept_iff`: when a webhook is kept
- `rotation_keeps_iff`: when every secret survives
-/

namespace BotHive.Backup

open Credentials

namespace Rotation

variable {r : Rotation} (hkey : r.registry.key ≠ "")

-- ════════════════════════════════════════════════════════════════════════
-- Settled rows
-- ════════════════════════════════════════════════════════════════════════

theorem valueAfter_of_settled {value : Option String} (h : Settled r.aes r.registry value)
    (place : Place) : r.valueAfter value place = value :=
  or_rotated_of_settled h _

theorem pairsAfter_of_settled {pairs : List KeyPair}
    (h : ∀ pair ∈ pairs, PairSettled r.aes r.registry pair) (id : String) (i : ℕ) :
    r.pairsAfter id i pairs = pairs := by
  induction pairs generalizing i with
  | nil => rfl
  | cons pair rest ih =>
    obtain ⟨hapiKey, hapiSecret⟩ := h pair List.mem_cons_self
    rw [pairsAfter, ih (fun p hp => h p (List.mem_cons_of_mem pair hp)),
      valueAfter_of_settled hapiKey, valueAfter_of_settled hapiSecret]

include hkey

theorem rotateAccount_settled {a : AccountRow} (h : AccountSettled r.aes r.registry a) :
    r.rotateAccount a = .ok none := by
  obtain ⟨updates, hupdates, -, hnone⟩ := rotateFields_eq hkey a credentialFields
  obtain ⟨pool, hwritten, -, hsame⟩ := rotatePool_eq hkey a
  have hpool : a.apiKeys.map (r.pairsAfter a.id 0) = a.apiKeys := by
    rcases hpairs : a.apiKeys with _ | pairs
    · rfl
    · rw [Option.map_some, pairsAfter_of_settled (h.apiKeys pairs hpairs)]
  rw [rotateAccount, hupdates, hwritten]
  exact if_pos ⟨fun field _ => hnone field (h.credentials field), hsame hpool⟩

theorem rotateProxy_settled {p : ProxyRow} (h : Settled r.aes r.registry (some p.url)) :
    r.rotateProxy p = .ok none := by
  rw [rotateProxy, rotateValue_eq hkey, filter_of_settled h]
  rfl

theorem rotateWebhook_settled {w : WebhookRow} (h : WebhookSettled r.registry w) :
    r.rotateWebhook w = .ok none := by
  rw [rotateWebhook]
  rcases hsecret : present w.secret with _ | secret
  · rfl
  · obtain ⟨hw, -⟩ := present_eq_some hsecret
    have hcurrent : IsCurrent r.registry w.secret :=
      h.resolve_left (by rw [hsecret]; exact Option.some_ne_none secret)
    rw [hw] at hcurrent
    dsimp only
    rw [reencrypt_eq hkey, rotated_current hcurrent]
    exact congrArg Except.ok (if_pos rfl)

theorem rotateBot_settled {b : BotRow} (h : BotSettled r.aes r.registry b) :
    r.rotateBot b = .ok none := by
  rw [rotateBot]
  rcases hconfig : b.config with _ | config
  · rfl
  · dsimp only
    rcases hpresent : present (walletKey? config) with _ | key
    · rfl
    · obtain ⟨hwallet, -⟩ := present_eq_some hpresent
      have hsettled : Settled r.aes r.registry (some key) := by
        refine h key ?_
        rw [hconfig, Option.bind_some, hwallet]
      dsimp only
      rw [rotateValue_eq hkey, filter_of_settled hsettled]
      rfl

omit hkey

theorem settled_valueAfter (value : Option String) (place : Place) :
    Settled r.aes r.registry (r.valueAfter value place) :=
  settled_or_rotated value _

theorem settled_pairsAfter (id : String) (i : ℕ) (pairs : List KeyPair) :
    ∀ pair ∈ r.pairsAfter id i pairs, PairSettled r.aes r.registry pair := by
  induction pairs generalizing i with
  | nil => exact nofun
  | cons pair rest ih =>
    intro p hp
    rcases List.mem_cons.mp hp with rfl | hrest
    · exact ⟨settled_valueAfter _ _, settled_valueAfter _ _⟩
    · exact ih (i + 1) p hrest

theorem settled_accountAfter (a : AccountRow) :
    AccountSettled r.aes r.registry (r.accountAfter a) := by
  refine ⟨fun field => settled_valueAfter (a.credentials field) _, fun pairs hpairs => ?_⟩
  obtain ⟨old, -, rfl⟩ := Option.map_eq_some_iff.mp hpairs
  exact settled_pairsAfter a.id 0 old

/-- The url of a proxy after a rotation. -/
theorem some_url_proxyAfter (p : ProxyRow) :
    some (r.proxyAfter p).url = r.valueAfter (some p.url) (.proxy p.id) := by
  rw [proxyAfter, valueAfter]
  rcases rotated r.aes r.registry (some p.url) (r.nonces (.proxy p.id)) with _ | url
  · rfl
  · rfl

theorem settled_webhookAfter (w : WebhookRow) :
    WebhookSettled r.registry (r.webhookAfter w) := by
  rw [webhookAfter]
  by_cases hsecret : present w.secret = none
  · rw [if_pos hsecret]
    exact .inl hsecret
  · rw [if_neg hsecret, WebhookSettled]
    dsimp only
    by_cases hsettled : Settled r.aes r.registry w.secret
    · by_cases hcurrent : IsCurrent r.registry w.secret
      · rw [rotated_current hcurrent]
        exact .inr hcurrent
      · rw [rotated, if_neg hcurrent, hsettled.resolve_left hcurrent]
        exact .inl rfl
    · obtain ⟨text, -, -, hrotated⟩ := rotated_of_not_settled hsettled
        (r.nonces (.webhook w.id))
      rw [hrotated]
      exact .inr (isCurrent_storedForm text _)

/-- The wallet key of a bot after a rotation. -/
theorem walletKey_botAfter (b : BotRow) :
    (r.botAfter b).config.bind walletKey? =
      (b.config.bind walletKey?).bind fun key => r.valueAfter (some key) (.wallet b.id) := by
  rw [botAfter]
  rcases hwallet : b.config.bind walletKey? with _ | key
  · exact hwallet
  · rw [Option.bind_some, ← filter_or]
    dsimp only
    rcases (rotated r.aes r.registry (some key) (r.nonces (.wallet b.id))).filter (· ≠ key) with
      _ | new
    · exact hwallet
    · obtain ⟨config, hconfig, hread⟩ := Option.bind_eq_some_iff.mp hwallet
      dsimp only
      rw [hconfig, Option.map_some, Option.bind_some, walletKey?_setWalletKey hread]
      rfl

theorem settled_botAfter (b : BotRow) : BotSettled r.aes r.registry (r.botAfter b) := by
  intro key hwallet
  rw [walletKey_botAfter] at hwallet
  obtain ⟨old, -, hafter⟩ := Option.bind_eq_some_iff.mp hwallet
  rw [← hafter]
  exact settled_valueAfter _ _

theorem botAfter_rest (b : BotRow) :
    r.botAfter b = b ∨ ∃ key, r.botAfter b = { b with config := b.config.map (setWalletKey key) } := by
  rw [botAfter]
  split
  · exact .inl rfl
  · split
    · exact .inl rfl
    · exact .inr ⟨_, rfl⟩

theorem ownerId_botAfter (b : BotRow) : (r.botAfter b).ownerId = b.ownerId := by
  rcases botAfter_rest (r := r) b with h | ⟨key, h⟩ <;> rw [h]

/-- A rotation leaves the bots with their owners. -/
theorem ofBotOf_tablesAfter (owner : String) (t : Tables) (w : WebhookRow) :
    ofBotOf owner (r.tablesAfter owner t).bots w = ofBotOf owner t.bots w := by
  change (mapFound (·.ownerId = owner) r.botAfter t.bots).any _ = _
  rw [ofBotOf, mapFound, List.any_map]
  congr 1
  funext b
  rw [Function.comp_apply]
  split
  · rcases botAfter_rest (r := r) b with h | ⟨key, h⟩ <;> rw [h]
  · rfl

theorem botId_webhookAfter (w : WebhookRow) : (r.webhookAfter w).botId = w.botId := by
  rw [webhookAfter]
  split <;> rfl

/-- **Second rotation**: whatever nonces it draws, it writes nothing. -/
theorem rotateEncryption_again (hkey : r.registry.key ≠ "") (owner : String) (t : Tables)
    (nonces : Place → Nonce) :
    ({ r with nonces := nonces } : Rotation).rotateEncryption owner (r.tablesAfter owner t) =
      .ok (r.tablesAfter owner t, ⟨0, 0, 0, 0⟩) := by
  let again : Rotation := { r with nonces := nonces }
  have haccounts : rotateRows (·.ownerId = owner) again.rotateAccount
      (r.tablesAfter owner t).accounts = .ok ((r.tablesAfter owner t).accounts, 0) := by
    refine rotateRows_again (fun a => ?_)
      (fun a => rotateAccount_settled (r := again) hkey (settled_accountAfter (r := r) a)) t.accounts
    split <;> rfl
  have hproxies : rotateRows (fun _ => true) again.rotateProxy (r.tablesAfter owner t).proxies =
      .ok ((r.tablesAfter owner t).proxies, 0) := by
    refine rotateRows_again (fun _ => rfl) (fun p => ?_) t.proxies
    have hsettled := settled_valueAfter (r := r) (some p.url) (.proxy p.id)
    rw [← some_url_proxyAfter] at hsettled
    exact rotateProxy_settled (r := again) hkey hsettled
  have hwebhooks : rotateRows (ofBotOf owner (r.tablesAfter owner t).bots) again.rotateWebhook
      (r.tablesAfter owner t).webhooks = .ok ((r.tablesAfter owner t).webhooks, 0) := by
    refine rotateRows_again (fun w => ?_)
      (fun w => rotateWebhook_settled (r := again) hkey (settled_webhookAfter (r := r) w)) t.webhooks
    rw [ofBotOf_tablesAfter]
    split
    · rw [ofBotOf, botId_webhookAfter, ofBotOf]
    · rfl
  have hbots : rotateRows (·.ownerId = owner) again.rotateBot (r.tablesAfter owner t).bots =
      .ok ((r.tablesAfter owner t).bots, 0) := by
    refine rotateRows_again (fun b => ?_)
      (fun b => rotateBot_settled (r := again) hkey (settled_botAfter (r := r) b)) t.bots
    split
    · rw [ownerId_botAfter]
    · rfl
  change again.rotateEncryption owner (r.tablesAfter owner t) = _
  rw [rotateEncryption, haccounts, hproxies, hwebhooks, hbots]
  rfl

-- ════════════════════════════════════════════════════════════════════════
-- Which secrets a rotation keeps
-- ════════════════════════════════════════════════════════════════════════

theorem forall₂_mapFound {α : Type*} {R : α → α → Prop} {found : α → Bool} {next : α → α}
    {rows : List α} :
    List.Forall₂ R rows (mapFound found next rows) ↔
      ∀ row ∈ rows, R row (if found row then next row else row) := by
  rw [mapFound, List.forall₂_map_right_iff, List.forall₂_same]

section Keeps

variable (haes : r.aes.Correct)

include hkey haes

theorem secretKept_valueAfter (value : Option String) (place : Place) :
    SecretKept r.aes r.registry value (r.valueAfter value place) :=
  secretKept_or_rotated haes hkey value _

theorem pairKept_pairsAfter (id : String) (i : ℕ) (pairs : List KeyPair) :
    List.Forall₂ (PairKept r.aes r.registry) pairs (r.pairsAfter id i pairs) := by
  induction pairs generalizing i with
  | nil => exact .nil
  | cons pair rest ih =>
    exact .cons ⟨secretKept_valueAfter hkey haes _ _, secretKept_valueAfter hkey haes _ _⟩
      (ih (i + 1))

theorem accountKept_accountAfter (a : AccountRow) :
    AccountKept r.aes r.registry a (r.accountAfter a) := by
  refine ⟨rfl, fun field => secretKept_valueAfter hkey haes _ _, ?_⟩
  rw [accountAfter]
  dsimp only
  rcases a.apiKeys with _ | pairs
  · exact .none
  · exact .some (pairKept_pairsAfter hkey haes a.id 0 pairs)

theorem proxyKept_proxyAfter (p : ProxyRow) : ProxyKept r.aes r.registry p (r.proxyAfter p) := by
  refine ⟨rfl, ?_⟩
  rw [some_url_proxyAfter]
  exact secretKept_valueAfter hkey haes _ _

theorem botKept_botAfter (b : BotRow) : BotKept r.aes r.registry b (r.botAfter b) := by
  refine ⟨botAfter_rest b, ?_⟩
  rw [walletKey_botAfter]
  rcases b.config.bind walletKey? with _ | key
  · exact secretKept_self_iff.mpr (.inr rfl)
  · exact secretKept_valueAfter hkey haes _ _

/-- A webhook that the loop reaches keeps its secret unless the secret is given up. -/
theorem secretKept_webhookAfter_iff (w : WebhookRow) :
    SecretKept r.aes r.registry w.secret (r.webhookAfter w).secret ↔
      present w.secret = none ∨ IsCurrent r.registry w.secret ∨
        present (decryptCredential r.aes r.registry w.secret) ≠ none := by
  rw [webhookAfter]
  by_cases hsecret : present w.secret = none
  · have hnone : present (decryptCredential r.aes r.registry w.secret) = none := by
      rw [decryptCredential, hsecret]
      rfl
    rw [if_pos hsecret]
    exact iff_of_true (secretKept_self_iff.mpr (.inr hnone)) (.inl hsecret)
  rw [if_neg hsecret]
  dsimp only
  by_cases hcurrent : IsCurrent r.registry w.secret
  · rw [rotated_current hcurrent]
    exact iff_of_true (secretKept_self_iff.mpr (.inl hcurrent)) (.inr (.inl hcurrent))
  by_cases hread : present (decryptCredential r.aes r.registry w.secret) = none
  · -- the secret is there and cannot be read: it is written as nothing
    have hlost : ¬ SecretKept r.aes r.registry w.secret none := by
      intro hkept
      rw [SecretKept] at hkept
      rcases hdecrypt : decryptCredential r.aes r.registry w.secret with _ | text
      · rw [hdecrypt] at hkept
        dsimp only at hkept
        rw [← hkept] at hsecret
        exact hsecret rfl
      · rw [hdecrypt] at hkept
        cases hkept.1
    rw [rotated, if_neg hcurrent, hread, Option.map_none]
    exact iff_of_false hlost (by
      rintro (h | h | h)
      · exact hsecret h
      · exact hcurrent h
      · exact h rfl)
  · have hkept := secretKept_valueAfter hkey haes w.secret (.webhook w.id)
    have hsettled : ¬ Settled r.aes r.registry w.secret := not_or.mpr ⟨hcurrent, hread⟩
    obtain ⟨text, -, -, hrotated⟩ := rotated_of_not_settled hsettled (r.nonces (.webhook w.id))
    rw [valueAfter, hrotated, Option.some_or] at hkept
    rw [hrotated]
    exact iff_of_true hkept (.inr (.inr hread))

omit hkey haes in
/-- The loop leaves a webhook as it is when it has no secret or one under the current
    version. -/
theorem webhookAfter_eq_self_iff (w : WebhookRow) :
    r.webhookAfter w = w ↔ present w.secret = none ∨ IsCurrent r.registry w.secret := by
  rw [webhookAfter]
  by_cases hsecret : present w.secret = none
  · rw [if_pos hsecret]
    exact iff_of_true rfl (.inl hsecret)
  rw [if_neg hsecret]
  constructor
  · intro hsame
    have hrotated := congrArg WebhookRow.secret hsame
    by_contra hother
    obtain ⟨-, hcurrent⟩ := not_or.mp hother
    dsimp only at hrotated
    rw [rotated, if_neg hcurrent] at hrotated
    rcases hread : present (decryptCredential r.aes r.registry w.secret) with _ | text
    · rw [hread, Option.map_none] at hrotated
      rw [← hrotated] at hsecret
      exact hsecret rfl
    · rw [hread, Option.map_some] at hrotated
      rw [← hrotated] at hcurrent
      exact hcurrent (isCurrent_storedForm text _)
  · intro hor
    rw [rotated_current (hor.resolve_left hsecret)]

/-- **One webhook**: a rotation keeps a webhook exactly when it fits. -/
theorem webhookKept_iff (owner : String) (bots : List BotRow) (w : WebhookRow) :
    (if w.ownerId = owner then WebhookKept r.aes r.registry w
        (if ofBotOf owner bots w then r.webhookAfter w else w)
      else (if ofBotOf owner bots w then r.webhookAfter w else w) = w) ↔
      WebhookFits r.aes r.registry owner bots w := by
  have hrest : r.webhookAfter w = { w with secret := (r.webhookAfter w).secret } := by
    rw [webhookAfter]
    split <;> rfl
  rw [WebhookFits]
  by_cases hreached : ofBotOf owner bots w = true
  · rw [if_pos hreached, if_pos hreached]
    by_cases howner : w.ownerId = owner
    · rw [if_pos howner]
      simp only [howner, true_and]
      rw [← secretKept_webhookAfter_iff hkey haes w]
      exact ⟨WebhookKept.secret, fun h => ⟨hrest, h⟩⟩
    · rw [if_neg howner, webhookAfter_eq_self_iff]
      simp only [howner, false_and, or_false]
  · rw [if_neg hreached, if_neg hreached]
    by_cases howner : w.ownerId = owner
    · rw [if_pos howner, forall_prop_of_true howner, ← secretKept_self_iff]
      exact ⟨WebhookKept.secret, fun h => ⟨rfl, h⟩⟩
    · rw [if_neg howner]
      exact iff_of_true rfl fun h => absurd h howner

/-- A rotation keeps every secret exactly when every webhook fits. -/
theorem rotationKeeps_iff (owner : String) (t : Tables) :
    RotationKeeps r.aes r.registry owner t (r.tablesAfter owner t) ↔
      ∀ w ∈ t.webhooks, WebhookFits r.aes r.registry owner t.bots w := by
  constructor
  · intro h w hw
    exact (webhookKept_iff hkey haes owner t.bots w).mp (forall₂_mapFound.mp h.webhooks w hw)
  · intro h
    refine ⟨?_, ?_, ?_, ?_, rfl⟩
    · refine forall₂_mapFound.mpr fun a _ => ?_
      by_cases howner : a.ownerId = owner
      · rw [if_pos howner, if_pos (decide_eq_true howner)]
        exact accountKept_accountAfter hkey haes a
      · rw [if_neg howner, if_neg (by simpa using howner)]
    · refine forall₂_mapFound.mpr fun b _ => ?_
      by_cases howner : b.ownerId = owner
      · rw [if_pos howner, if_pos (decide_eq_true howner)]
        exact botKept_botAfter hkey haes b
      · rw [if_neg howner, if_neg (by simpa using howner)]
    · exact forall₂_mapFound.mpr fun w hw => (webhookKept_iff hkey haes owner t.bots w).mpr (h w hw)
    · exact forall₂_mapFound.mpr fun p _ => proxyKept_proxyAfter hkey haes p

end Keeps

end Rotation

/-- **Key rotation**: with a key, a rotation by an owner keeps every secret, changes nothing else
    and has nothing to do when it is repeated, exactly if every webhook fits. -/
theorem rotation_keeps_iff (r : Rotation) (haes : r.aes.Correct) (hkey : r.registry.key ≠ "")
    (owner : String) (t : Tables) :
    (∃ t' stats, r.rotateEncryption owner t = .ok (t', stats) ∧
        RotationKeeps r.aes r.registry owner t t' ∧
        ∀ nonces, ({ r with nonces := nonces } : Rotation).rotateEncryption owner t' =
          .ok (t', ⟨0, 0, 0, 0⟩)) ↔
      ∀ w ∈ t.webhooks, WebhookFits r.aes r.registry owner t.bots w := by
  obtain ⟨stats, hrotate⟩ := Rotation.rotateEncryption_eq hkey owner t
  constructor
  · rintro ⟨t', stats', hrotate', hkeeps, -⟩
    obtain ⟨rfl, -⟩ := Prod.mk.inj (Except.ok.inj (hrotate.symm.trans hrotate'))
    exact (Rotation.rotationKeeps_iff hkey haes owner t).mp hkeeps
  · intro hfits
    exact ⟨_, stats, hrotate, (Rotation.rotationKeeps_iff hkey haes owner t).mpr hfits,
      Rotation.rotateEncryption_again hkey owner t⟩

/-- A process that has rotated from the sample key to the key of the passphrase `k2`. -/
def sampleRotation : Rotation where
  aes := sampleAes
  production := true
  registry :=
    ⟨"v2", "015f7e6bc5aeaf483724089e9252cc13b50951a6b69412522765cff4d780306e",
      InsertionMap.empty.set "v1" sampleKey, by decide⟩
  nonces _ := sampleNonce

/-- A webhook with a secret under the old version. -/
def sampleWebhook (botId : Option String) : WebhookRow where
  id := "w1"
  ownerId := "u1"
  botId := botId
  secret := some ("enc:v1:000102030405060708090a0b0c0d0e0f:" ++
    "418d29daa5c8e2162c1a06d0f06ba0af:a5aacce93a0a")

def sampleTables (botId : Option String) : Tables where
  accounts := []
  bots := [⟨"b1", "u1", "a1", "bot", "telegram", 0, none⟩]
  scripts := []
  webhooks := [sampleWebhook botId]
  proxies := []

/-- The process reads the secret with the key of the old version. -/
theorem present_sampleWebhook (botId : Option String) :
    present (decryptCredential sampleRotation.aes sampleRotation.registry
      (sampleWebhook botId).secret) = some "s3cret" := by
  show present (decryptCredential sampleAes sampleRotation.registry (sampleWebhook none).secret) =
    some "s3cret"
  decide +kernel

/-- The secret of a webhook of a bot is rotated. -/
theorem rotation_keeps_bot_webhook :
    ∃ t' stats, sampleRotation.rotateEncryption "u1" (sampleTables (some "b1")) =
        .ok (t', stats) ∧
      RotationKeeps sampleAes sampleRotation.registry "u1" (sampleTables (some "b1")) t' ∧
      ∀ nonces, ({ sampleRotation with nonces := nonces } : Rotation).rotateEncryption "u1" t' =
        .ok (t', ⟨0, 0, 0, 0⟩) := by
  refine (rotation_keeps_iff sampleRotation sampleAes_correct (by decide) "u1"
    (sampleTables (some "b1"))).mpr fun w hw => ?_
  obtain rfl := List.mem_singleton.mp hw
  rw [WebhookFits, if_pos (by decide), present_sampleWebhook]
  exact .inr (.inr ⟨rfl, Option.some_ne_none _⟩)

/-- The secret of a global webhook stays under the old version. -/
theorem rotation_fails_on_global_webhook :
    ¬ ∃ t' stats, sampleRotation.rotateEncryption "u1" (sampleTables none) = .ok (t', stats) ∧
      RotationKeeps sampleAes sampleRotation.registry "u1" (sampleTables none) t' := by
  rintro ⟨t', stats, hrotate, hkeeps⟩
  have hkey : sampleRotation.registry.key ≠ "" := by decide
  obtain ⟨stats', hrotate'⟩ := Rotation.rotateEncryption_eq hkey "u1" (sampleTables none)
  obtain ⟨rfl, -⟩ := Prod.mk.inj (Except.ok.inj (hrotate'.symm.trans hrotate))
  have hfits := (Rotation.rotationKeeps_iff hkey sampleAes_correct "u1" (sampleTables none)).mp
    hkeeps (sampleWebhook none) List.mem_cons_self
  rw [WebhookFits, if_neg (by decide)] at hfits
  have hstale : ¬ IsCurrent sampleRotation.registry (sampleWebhook none).secret := by
    decide +kernel
  rcases hfits rfl with hcurrent | hunreadable
  · exact hstale hcurrent
  · rw [present_sampleWebhook] at hunreadable
    cases hunreadable

end BotHive.Backup
