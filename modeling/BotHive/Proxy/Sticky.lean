import BotHive.Library.InsertionMap
import BotHive.Library.Machine
import BotHive.Library.Numeric
import BotHive.Proxy.Pool

/-!
# Sticky proxy sessions

A bot keeps its proxy for a configured time. The manager stores the bindings and,
in a map of its own, how many bots are bound to each proxy; the second map decides
which proxies still have capacity.

## Main definitions

- `StickySessionManager`: the bindings and the load map
- `getProxyForBot`, `bind`, `unbind`, `cleanup`: the operations
- `excess`: by how much the load map overstates the bindings of a proxy
- `Accounted`: the load map counts the bindings
- `ReleasesLive`: the calls that unbind no expired binding

## Main results

- `accounted_step_iff`: out of an accounted state a call leads to an accounted
  state exactly when it unbinds no expired binding
- `accounted_everywhere_iff`: the same for whole runs
-/

namespace BotHive.Proxy

structure StickyConfig where
  /-- How long a bot stays bound to one proxy, in milliseconds. -/
  stickyDurationMs : ℤ
  /-- Maximum number of bots that share a proxy. -/
  maxBotsPerProxy : ℤ

def defaultStickyConfig : StickyConfig where
  stickyDurationMs := 24 * 60 * 60 * 1000
  maxBotsPerProxy := 3

structure StickyBinding where
  botId : String
  proxyId : String
  boundAt : ℤ
  expiresAt : ℤ
  deriving DecidableEq

structure StickySessionManager where
  config : StickyConfig
  bindings : InsertionMap String StickyBinding
  proxyLoad : InsertionMap String ℤ

namespace StickySessionManager

/-- A manager without bindings. -/
def new (config : StickyConfig) : StickySessionManager :=
  ⟨config, .empty, .empty⟩

def getLoadMap (m : StickySessionManager) : InsertionMap String ℤ :=
  m.proxyLoad

/-- The load of a proxy, 0 when the map has no entry for it. -/
def load (m : StickySessionManager) (proxyId : String) : ℤ :=
  (m.getLoadMap.get proxyId).getD 0

/-- The number of bindings stored for a proxy. -/
def bound (m : StickySessionManager) (proxyId : String) : ℕ :=
  m.bindings.count fun _ b => b.proxyId = proxyId

/-- Take one bot off the load of a proxy. -/
def decrement (m : StickySessionManager) (proxyId : String) : StickySessionManager :=
  { m with proxyLoad := m.proxyLoad.set proxyId (max 0 ((m.proxyLoad.get proxyId).getD 1 - 1)) }

def unbind (m : StickySessionManager) (botId : String) (now : ℤ) : StickySessionManager :=
  match m.bindings.get botId with
  | none => m
  | some existing =>
    -- the load is only decremented when the binding has not expired
    let m := if now < existing.expiresAt then m.decrement existing.proxyId else m
    { m with bindings := m.bindings.delete botId }

/-- Store a new binding of a bot and count it. -/
def attach (m : StickySessionManager) (botId proxyId : String) (now : ℤ) :
    StickySessionManager :=
  let expiresAt := now + m.config.stickyDurationMs
  { m with
    bindings := m.bindings.set botId ⟨botId, proxyId, now, expiresAt⟩
    proxyLoad := m.proxyLoad.set proxyId (m.load proxyId + 1) }

def bind (m : StickySessionManager) (botId proxyId : String) (now : ℤ) : StickySessionManager :=
  (m.unbind botId now).attach botId proxyId now

/-- The healthy proxies with capacity. -/
def eligible (m : StickySessionManager) (pool : ProxyPool) : List ProxyInstance :=
  pool.getProxies.filter fun p => p.healthy && decide (m.load p.id < m.config.maxBotsPerProxy)

/-- Bind the bot to a proxy with capacity, or fall back to the pool's own choice. -/
def assign (m : StickySessionManager) (pool : ProxyPool) (botId : String) (now : ℤ)
    (draw : Draw) : Option ProxyInstance × StickySessionManager × ProxyPool :=
  let eligible := m.eligible pool
  if eligible = [] then
    let (selected, pool) := pool.selectProxy now
    (selected, m, pool)
  else
    let tier := topTier eligible
    match tier[draw.index tier.length]? with
    | none => (none, m, pool)
    | some pick => (some pick, m.bind botId pick.id now, pool)

/-- The proxy that a bot should use. `wall` is the clock at the moment an unhealthy
    proxy is unbound: that call does not pass `now` on. -/
def getProxyForBot (m : StickySessionManager) (pool : ProxyPool) (botId : String)
    (now wall : ℤ) (draw : Draw) : Option ProxyInstance × StickySessionManager × ProxyPool :=
  match m.bindings.get botId with
  | none => m.assign pool botId now draw
  | some existing =>
    if now < existing.expiresAt then
      match pool.getProxy existing.proxyId with
      | none => (m.unbind botId wall).assign pool botId now draw
      | some proxy =>
        if proxy.healthy then (some proxy, m, pool)
        else (m.unbind botId wall).assign pool botId now draw
    else m.assign pool botId now draw

/-- Drop a binding that has expired and take it off the load. -/
def expire (now : ℤ) (m : StickySessionManager) (botId : String) (binding : StickyBinding) :
    StickySessionManager :=
  if binding.expiresAt ≤ now then
    let m := m.decrement binding.proxyId
    { m with bindings := m.bindings.delete botId }
  else m

def cleanup (m : StickySessionManager) (now : ℤ) : StickySessionManager :=
  m.bindings.entries.foldl (fun m e => expire now m e.1 e.2) m

end StickySessionManager

open StickySessionManager

/-- One call of the manager. The pool may have changed in any way since the last call. -/
inductive StickyOp where
  | getProxyForBot (pool : ProxyPool) (botId : String) (now wall : ℤ) (draw : Draw)
  | bind (botId proxyId : String) (now : ℤ)
  | unbind (botId : String) (now : ℤ)
  | cleanup (now : ℤ)

def StickyOp.apply (m : StickySessionManager) : StickyOp → StickySessionManager
  | .getProxyForBot pool botId now wall draw => (m.getProxyForBot pool botId now wall draw).2.1
  | .bind botId proxyId now => m.bind botId proxyId now
  | .unbind botId now => m.unbind botId now
  | .cleanup now => m.cleanup now

/-- The load map gives for every proxy the number of its bindings, so a proxy has
    no capacity left exactly when the maximal number of bots is bound to it. -/
def Accounted (m : StickySessionManager) : Prop :=
  ∀ proxyId, m.load proxyId = m.bound proxyId ∧
    (¬ m.load proxyId < m.config.maxBotsPerProxy ↔ m.config.maxBotsPerProxy ≤ m.bound proxyId)

/-- Unbinding the bot at this time meets no expired binding. -/
def Unexpired (m : StickySessionManager) (botId : String) (now : ℤ) : Prop :=
  ∀ existing, m.bindings.get botId = some existing → now < existing.expiresAt

/-- The pool lists the proxy as enabled and healthy. -/
def Usable (pool : ProxyPool) (proxyId : String) : Prop :=
  ∃ proxy, pool.getProxy proxyId = some proxy ∧ proxy.healthy = true

/-- The call unbinds no expired binding. A request for a proxy unbinds a current
    binding when its proxy is unusable, and an expired one when it rebinds the bot. -/
def ReleasesLive (m : StickySessionManager) : StickyOp → Prop
  | .getProxyForBot pool botId now wall _ =>
    ∀ existing, m.bindings.get botId = some existing →
      (now < existing.expiresAt → Usable pool existing.proxyId ∨ wall < existing.expiresAt) ∧
        (existing.expiresAt ≤ now → m.eligible pool = [])
  | .bind botId _ now => Unexpired m botId now
  | .unbind botId now => Unexpired m botId now
  | .cleanup _ => True

/-- By how much the load map overstates the number of bindings of a proxy. -/
def excess (m : StickySessionManager) (proxyId : String) : ℤ :=
  m.load proxyId - m.bound proxyId

theorem accounted_iff (m : StickySessionManager) : Accounted m ↔ ∀ p, excess m p = 0 := by
  constructor
  · intro h p
    rw [excess, (h p).1, sub_self]
  · intro h p
    have hload : m.load p = m.bound p := sub_eq_zero.mp (h p)
    exact ⟨hload, by rw [hload, not_lt]⟩

theorem load_decrement (m : StickySessionManager) (proxyId p : String) :
    (m.decrement proxyId).load p =
      if p = proxyId then max 0 ((m.proxyLoad.get proxyId).getD 1 - 1) else m.load p := by
  rw [load, load, getLoadMap, getLoadMap, decrement, InsertionMap.get_set]
  split_ifs <;> rfl

theorem bound_delete {m : StickySessionManager} {botId : String} {existing : StickyBinding}
    (h : m.bindings.get botId = some existing) (p : String) :
    ((m.bindings.delete botId).count (fun _ b => b.proxyId = p) : ℤ) =
      m.bound p - if existing.proxyId = p then 1 else 0 := by
  have hcount := m.bindings.count_delete_add (fun _ b => decide (b.proxyId = p)) h
  rw [bound]
  by_cases hp : existing.proxyId = p
  · simp only [hp, decide_true, if_true] at hcount ⊢
    omega
  · simp only [hp, decide_false, if_false] at hcount ⊢
    simp only [Bool.false_eq_true, if_false] at hcount
    omega

/-- A bound proxy of an accounted manager has an entry in the load map, so that
    taking one bot off never falls back to the default of 1. -/
theorem load_pos {m : StickySessionManager} (h : ∀ p, excess m p = 0) {botId : String}
    {existing : StickyBinding} (hb : m.bindings.get botId = some existing) :
    0 < m.load existing.proxyId := by
  have hdelete := bound_delete hb existing.proxyId
  rw [if_pos rfl] at hdelete
  have hzero := h existing.proxyId
  rw [excess] at hzero
  omega

/-- Releasing a binding of an accounted manager with its load leaves it accounted. -/
theorem excess_release {m : StickySessionManager} (h : ∀ p, excess m p = 0) {botId : String}
    {existing : StickyBinding} (hb : m.bindings.get botId = some existing) (p : String) :
    excess { m.decrement existing.proxyId with bindings := m.bindings.delete botId } p = 0 := by
  have hload : load { m.decrement existing.proxyId with bindings := m.bindings.delete botId } p =
      m.load p - if existing.proxyId = p then 1 else 0 := by
    change (m.decrement existing.proxyId).load p = _
    rw [load_decrement]
    by_cases hp : p = existing.proxyId
    · subst hp
      have hpos := load_pos h hb
      rw [load, getLoadMap] at hpos ⊢
      cases hg : m.proxyLoad.get existing.proxyId with
      | none =>
        rw [hg] at hpos
        exact absurd hpos (lt_irrefl 0)
      | some n =>
        rw [hg] at hpos
        simp only [Option.getD_some, if_true] at hpos ⊢
        omega
    · have hp' : ¬ existing.proxyId = p := fun hc => hp hc.symm
      rw [if_neg hp, if_neg hp', sub_zero]
  have hzero := h p
  rw [excess] at hzero ⊢
  rw [hload]
  change _ - ((m.bindings.delete botId).count (fun _ b => b.proxyId = p) : ℤ) = 0
  rw [bound_delete hb p]
  omega

/-- Unbinding an unexpired binding leaves an accounted manager accounted. -/
theorem excess_unbind {m : StickySessionManager} (h : ∀ p, excess m p = 0) {botId : String}
    {now : ℤ} (hlive : Unexpired m botId now) (p : String) :
    excess (m.unbind botId now) p = 0 := by
  rw [unbind]
  cases hb : m.bindings.get botId with
  | none => exact h p
  | some existing =>
    simp only [if_pos (hlive existing hb)]
    exact excess_release h hb p

/-- Unbinding an expired binding leaves its proxy one bot too loaded. -/
theorem excess_unbind_of_expired {m : StickySessionManager} (h : ∀ p, excess m p = 0)
    {botId : String} {now : ℤ} {existing : StickyBinding}
    (hb : m.bindings.get botId = some existing) (hexpired : existing.expiresAt ≤ now) :
    excess (m.unbind botId now) existing.proxyId = 1 := by
  have hunbind : m.unbind botId now = { m with bindings := m.bindings.delete botId } := by
    rw [unbind, hb]
    simp only [if_neg (not_lt.mpr hexpired)]
  have hzero := h existing.proxyId
  rw [excess] at hzero ⊢
  rw [hunbind]
  change m.load existing.proxyId -
    ((m.bindings.delete botId).count (fun _ b => b.proxyId = existing.proxyId) : ℤ) = 1
  rw [bound_delete hb, if_pos rfl]
  omega

theorem get_unbind_self (m : StickySessionManager) (botId : String) (now : ℤ) :
    (m.unbind botId now).bindings.get botId = none := by
  rw [unbind]
  cases hb : m.bindings.get botId with
  | none => exact hb
  | some existing => exact InsertionMap.get_delete_self _ _

/-- A new binding is counted on both sides. -/
theorem excess_attach {m : StickySessionManager} {botId : String}
    (hb : m.bindings.get botId = none) (proxyId : String) (now : ℤ) (p : String) :
    excess (m.attach botId proxyId now) p = excess m p := by
  have hload : (m.attach botId proxyId now).load p =
      m.load p + if proxyId = p then 1 else 0 := by
    rw [load, getLoadMap, attach, InsertionMap.get_set]
    by_cases hp : p = proxyId
    · simp [hp]
    · have hp' : ¬ proxyId = p := fun hc => hp hc.symm
      simp [hp, hp', load, getLoadMap]
  have hbound : (m.attach botId proxyId now).bound p =
      m.bound p + if proxyId = p then 1 else 0 := by
    rw [bound, attach, InsertionMap.count_set_of_get_none _ _ _ _ hb]
    simp [bound]
  rw [excess, excess, hload, hbound]
  push_cast
  ring

theorem excess_bind (m : StickySessionManager) (botId proxyId : String) (now : ℤ) (p : String) :
    excess (m.bind botId proxyId now) p = excess (m.unbind botId now) p :=
  excess_attach (get_unbind_self m botId now) proxyId now p

/-- Unbinding keeps an accounted manager accounted exactly when the binding has
    not expired. -/
theorem unbind_exact_iff {m : StickySessionManager} (h : ∀ p, excess m p = 0) (botId : String)
    (now : ℤ) : (∀ p, excess (m.unbind botId now) p = 0) ↔ Unexpired m botId now := by
  constructor
  · intro hzero existing hb
    by_contra hexpired
    have hone := excess_unbind_of_expired h hb (not_lt.mp hexpired)
    rw [hzero] at hone
    exact absurd hone (by decide)
  · intro hlive p
    exact excess_unbind h hlive p

/-- The bot is bound to a proxy with capacity if there is one. -/
theorem assign_cases (m : StickySessionManager) (pool : ProxyPool) (botId : String) (now : ℤ)
    (draw : Draw) :
    (m.eligible pool = [] ∧ (m.assign pool botId now draw).2.1 = m) ∨
      (m.eligible pool ≠ [] ∧
        ∃ proxyId, (m.assign pool botId now draw).2.1 = m.bind botId proxyId now) := by
  by_cases hnone : m.eligible pool = []
  · refine Or.inl ⟨hnone, ?_⟩
    rw [assign]
    dsimp only
    rw [if_pos hnone]
  · refine Or.inr ⟨hnone, ?_⟩
    have hlt := draw.index_lt (List.length_pos_of_ne_nil (topTier_ne_nil hnone))
    refine ⟨(topTier (m.eligible pool))[draw.index (topTier (m.eligible pool)).length].id, ?_⟩
    rw [assign]
    dsimp only
    rw [if_neg hnone, List.getElem?_eq_getElem hlt]

theorem excess_assign_of_unbound {m : StickySessionManager} {botId : String}
    (hb : m.bindings.get botId = none) (pool : ProxyPool) (now : ℤ) (draw : Draw) (p : String) :
    excess (m.assign pool botId now draw).2.1 p = excess m p := by
  rcases assign_cases m pool botId now draw with ⟨_, hsame⟩ | ⟨_, proxyId, hbind⟩
  · rw [hsame]
  · have hunbind : m.unbind botId now = m := by
      rw [unbind, hb]
    rw [hbind, excess_bind, hunbind]

theorem getProxyForBot_exact_iff {m : StickySessionManager} (h : ∀ p, excess m p = 0)
    (pool : ProxyPool) (botId : String) (now wall : ℤ) (draw : Draw) :
    (∀ p, excess (m.getProxyForBot pool botId now wall draw).2.1 p = 0) ↔
      ReleasesLive m (.getProxyForBot pool botId now wall draw) := by
  rw [ReleasesLive, getProxyForBot]
  cases hb : m.bindings.get botId with
  | none =>
    refine iff_of_true (fun p => ?_) nofun
    rw [excess_assign_of_unbound hb]
    exact h p
  | some existing =>
    simp only [Option.some.injEq, forall_eq']
    by_cases hcurrent : now < existing.expiresAt
    · -- a current binding is kept, or unbound at the wall clock
      have hrebind : (∀ p, excess ((m.unbind botId wall).assign pool botId now draw).2.1 p = 0) ↔
          wall < existing.expiresAt := by
        simp only [excess_assign_of_unbound (get_unbind_self m botId wall)]
        rw [unbind_exact_iff h, Unexpired, hb]
        simp only [Option.some.injEq, forall_eq']
      have hlate : ¬ existing.expiresAt ≤ now := not_le.mpr hcurrent
      simp only [hcurrent, hlate, if_true, forall_const, IsEmpty.forall_iff, and_true]
      cases hproxy : pool.getProxy existing.proxyId with
      | none =>
        have husable : ¬ Usable pool existing.proxyId := by
          rintro ⟨proxy, hfound, _⟩
          rw [hproxy] at hfound
          cases hfound
        simp only [hrebind, husable, false_or]
      | some proxy =>
        by_cases hhealthy : proxy.healthy = true
        · simp only [if_pos hhealthy]
          exact iff_of_true h (Or.inl ⟨proxy, hproxy, hhealthy⟩)
        · have husable : ¬ Usable pool existing.proxyId := by
            rintro ⟨proxy', hfound, hhealthy'⟩
            rw [hproxy, Option.some.injEq] at hfound
            exact hhealthy (hfound ▸ hhealthy')
          simp only [if_neg hhealthy, hrebind, husable, false_or]
    · -- an expired binding is lost when the bot is rebound
      have hexpired : existing.expiresAt ≤ now := not_lt.mp hcurrent
      simp only [hcurrent, hexpired, if_false, forall_const, IsEmpty.forall_iff, true_and]
      rcases assign_cases m pool botId now draw with ⟨hnone, hsame⟩ | ⟨hsome, proxyId, hbind⟩
      · rw [hsame]
        exact iff_of_true h hnone
      · rw [hbind]
        refine iff_of_false (fun hzero => ?_) hsome
        have hone := excess_unbind_of_expired h hb hexpired
        rw [← excess_bind m botId proxyId, hzero] at hone
        exact absurd hone (by decide)

/-- Dropping the expired bindings among distinct stored ones keeps the accounts. -/
theorem excess_foldl_expire (now : ℤ) (es : List (String × StickyBinding))
    {m : StickySessionManager} (h : ∀ p, excess m p = 0) (hnodup : (es.map Prod.fst).Nodup)
    (hstored : ∀ e ∈ es, m.bindings.get e.1 = some e.2) (p : String) :
    excess (es.foldl (fun m e => expire now m e.1 e.2) m) p = 0 := by
  induction es generalizing m with
  | nil => exact h p
  | cons e rest ih =>
    rw [List.map_cons, List.nodup_cons] at hnodup
    have he := hstored e List.mem_cons_self
    have hrest := fun e' he' => hstored e' (List.mem_cons_of_mem e he')
    rw [List.foldl_cons, expire]
    split_ifs with hexpired
    · refine ih (fun p => excess_release h he p) hnodup.2 ?_
      intro e' he'
      have hne : e'.1 ≠ e.1 := fun hc => hnodup.1 (hc ▸ List.mem_map_of_mem he')
      change (m.bindings.delete e.1).get e'.1 = some e'.2
      rw [InsertionMap.get_delete_of_ne _ hne]
      exact hrest e' he'
    · exact ih h hnodup.2 hrest

theorem excess_cleanup {m : StickySessionManager} (h : ∀ p, excess m p = 0) (now : ℤ)
    (p : String) : excess (m.cleanup now) p = 0 :=
  excess_foldl_expire now m.bindings.entries h m.bindings.nodup
    (fun e he => (m.bindings.mem_entries_iff e.1 e.2).mp he) p

/-- A call keeps an accounted manager accounted exactly when it unbinds no expired
    binding. -/
theorem accounted_step_iff {m : StickySessionManager} (h : Accounted m) (op : StickyOp) :
    Accounted (op.apply m) ↔ ReleasesLive m op := by
  rw [accounted_iff] at h ⊢
  cases op with
  | getProxyForBot pool botId now wall draw =>
    exact getProxyForBot_exact_iff h pool botId now wall draw
  | bind botId proxyId now =>
    simp only [StickyOp.apply, excess_bind]
    exact unbind_exact_iff h botId now
  | unbind botId now => exact unbind_exact_iff h botId now
  | cleanup now => exact iff_of_true (excess_cleanup h now) trivial

/-- **Sticky load**: along a run of calls the load map counts the bindings at every
    moment exactly when no call unbinds an expired binding. -/
theorem accounted_everywhere_iff (config : StickyConfig) (ops : List StickyOp) :
    Machine.Everywhere (Machine.total StickyOp.apply) Accounted (new config) ops ↔
      Machine.Along (Machine.total StickyOp.apply) ReleasesLive (new config) ops := by
  apply Machine.everywhere_iff_along
  · rintro m op _ hm ⟨⟩
    exact accounted_step_iff hm op
  · rw [accounted_iff]
    intro p
    rfl

/-- Two bindings of one bot, the second a day after the first and one millisecond:
    the load of the proxy is two, with one binding stored. -/
theorem accounted_fails_after_expiry :
    ¬ Accounted
      ([.bind "bot" "proxy" 0, .bind "bot" "proxy" 86400001].foldl StickyOp.apply
        (new defaultStickyConfig)) := by
  intro h
  exact absurd (h "proxy").1 (by decide)

end BotHive.Proxy
