import Mathlib.Data.Finset.Sort
import BotHive.Library.Machine
import BotHive.Library.RoundRobin
import BotHive.Proxy.Pool

/-!
# The fairness of the pool

The cursor of a pool is kept modulo the tier of the last selection. As long as the tier has the same
proxies at every selection it turns around them, from whatever value it had.

## Main definitions

- `PoolRun.step`: the calls between which the list is not replaced
- `SameTier`: a selection finds a given set of proxies in its tier
- `Fair`: no proxy of the set is ahead of another by more than one selection, and every selection was
  right

## Main results

- `fair_of_sameTier`
-/

namespace BotHive.Proxy

section Definitions

/-- A proxy that can be selected. -/
def ProxyInstance.eligible (p : ProxyInstance) (now : ℤ) : Bool :=
  p.healthy && !p.inCooldown now

inductive PoolCall where
  | selectProxy (now : ℤ)
  | upsert (proxy : ProxyInstance) (hasLastFailedAt : Bool)
  | remove (id : String)
  | reportSuccess (id : String)
  | reportFailure (id : String) (now : ℤ)

/-- The entries that no eligible entry precedes in priority, in the order of the list. -/
def topEntries (entries : List (ℕ × ProxyInstance)) (now : ℤ) : List (ℕ × ProxyInstance) :=
  entries.filter fun e => e.2.eligible now &&
    entries.all fun other => !other.2.eligible now || decide (other.2.priority ≤ e.2.priority)

/-- A selection, with the entries among which it was made. -/
structure Selection where
  name : ℕ
  proxy : ProxyInstance
  now : ℤ
  entries : List (ℕ × ProxyInstance)

/-- The selected proxy was an eligible one of maximal priority. -/
structure Selection.Right (s : Selection) : Prop where
  mem : (s.name, s.proxy) ∈ s.entries
  enabled : s.proxy.enabled = true
  healthScore : 0 < s.proxy.healthScore
  cooldown : s.proxy.inCooldown s.now = false
  maximal : ∀ other ∈ s.entries, other.2.eligible s.now = true → other.2.priority ≤ s.proxy.priority

/-- A pool during a run. For statements only: the proxy objects have names, in the order of the list,
    and the selections are recorded. -/
structure PoolRun where
  pool : ProxyPool
  names : List ℕ
  created : ℕ
  selections : List Selection

namespace PoolRun

def start (pool : ProxyPool) : PoolRun where
  pool := pool
  names := List.range pool.list.length
  created := pool.list.length
  selections := []

def entries (s : PoolRun) : List (ℕ × ProxyInstance) :=
  s.names.zip s.pool.list

def step (s : PoolRun) : PoolCall → PoolRun
  | .selectProxy now =>
    let (proxy, pool) := s.pool.selectProxy now
    let tier := topEntries s.entries now
    match proxy, tier[s.pool.cursor % tier.length]? with
    | some proxy, some entry =>
      { s with
        pool
        selections := s.selections ++ [{ name := entry.1, proxy, now, entries := s.entries }] }
    | _, _ => { s with pool }
  | .upsert proxy hasLastFailedAt =>
    let pool := s.pool.upsert proxy hasLastFailedAt
    match s.pool.getProxy proxy.id with
    | some _ => { s with pool }
    | none => { s with pool, names := s.names ++ [s.created], created := s.created + 1 }
  | .remove id =>
    { s with
      pool := (s.pool.remove id).2
      names := (s.entries.filter fun e => e.2.id ≠ id).map Prod.fst }
  | .reportSuccess id => { s with pool := s.pool.reportSuccess id }
  | .reportFailure id now => { s with pool := s.pool.reportFailure id now }

/-- The names of the proxies that have been selected. -/
def selected (s : PoolRun) : List ℕ :=
  s.selections.map Selection.name

end PoolRun

/-- A selection finds the proxies of a set in its tier. -/
def SameTier (S : Finset ℕ) (s : PoolRun) : PoolCall → Prop
  | .selectProxy now => ((topEntries s.entries now).map Prod.fst).toFinset = S
  | _ => True

instance (S : Finset ℕ) (s : PoolRun) : (call : PoolCall) → Decidable (SameTier S s call)
  | .selectProxy _ => inferInstanceAs (Decidable (_ = _))
  | .upsert _ _ | .remove _ | .reportSuccess _ | .reportFailure _ _ =>
    inferInstanceAs (Decidable True)

structure Fair (S : Finset ℕ) (s : PoolRun) : Prop where
  balanced : ∀ x ∈ S, ∀ y ∈ S, s.selected.count x ≤ s.selected.count y + 1
  right : ∀ selection ∈ s.selections, selection.Right

end Definitions

variable {S : Finset ℕ} {s : PoolRun} {now : ℤ} {entries : List (ℕ × ProxyInstance)}

section Tiers

theorem topTier_eq_filter (l : List ProxyInstance) :
    topTier l = l.filter fun p => l.all fun q => decide (q.priority ≤ p.priority) := by
  rw [topTier]
  cases hmax : (l.map ProxyInstance.priority).max? with
  | none =>
    rw [List.max?_eq_none_iff, List.map_eq_nil_iff] at hmax
    rw [hmax, List.filter_nil]
  | some maxPriority =>
    obtain ⟨hmem, hmaximal⟩ := List.max?_eq_some_iff.mp hmax
    refine List.filter_congr fun p hp => ?_
    rw [Bool.eq_iff_iff, decide_eq_true_iff, List.all_eq_true]
    have hle (q : ProxyInstance) (hq : q ∈ l) : q.priority ≤ maxPriority :=
      hmaximal _ (List.mem_map_of_mem hq)
    constructor
    · rintro rfl q hq
      exact decide_eq_true (hle q hq)
    · intro hall
      obtain ⟨q, hq, hpriority⟩ := List.mem_map.mp hmem
      exact le_antisymm (hle p hp) (hpriority ▸ of_decide_eq_true (hall q hq))

/-- The tier of a selection consists of the proxies of the top entries. -/
theorem map_snd_topEntries (entries : List (ℕ × ProxyInstance)) (now : ℤ) :
    (topEntries entries now).map Prod.snd =
      topTier ((entries.map Prod.snd).filter fun p => p.healthy && !p.inCooldown now) := by
  rw [topTier_eq_filter, List.filter_filter, List.filter_map, topEntries]
  congr 1
  refine List.filter_congr fun e _ => ?_
  rw [Function.comp_apply, Bool.and_comm]
  congr 1
  rw [List.all_filter, List.all_map]
  rfl

theorem mem_topEntries {e : ℕ × ProxyInstance} :
    e ∈ topEntries entries now ↔ e ∈ entries ∧ e.2.eligible now = true ∧
      ∀ other ∈ entries, other.2.eligible now = true → other.2.priority ≤ e.2.priority := by
  rw [topEntries, List.mem_filter, Bool.and_eq_true, List.all_eq_true]
  simp only [Bool.or_eq_true, Bool.not_eq_true', decide_eq_true_eq, ← Bool.not_eq_true,
    ← imp_iff_not_or]

theorem right_of_mem_topEntries {e : ℕ × ProxyInstance} (h : e ∈ topEntries entries now) :
    Selection.Right ⟨e.1, e.2, now, entries⟩ := by
  obtain ⟨hmem, heligible, hmaximal⟩ := mem_topEntries.mp h
  have hboth := heligible
  rw [ProxyInstance.eligible, ProxyInstance.healthy, Bool.and_eq_true, Bool.and_eq_true,
    Bool.not_eq_true', decide_eq_true_eq] at hboth
  exact ⟨hmem, hboth.1.1, hboth.1.2, hboth.2, hmaximal⟩

end Tiers

section Runs

namespace PoolRun

/-- The names are in step with the list, and increase along it. -/
structure Named (s : PoolRun) : Prop where
  length : s.names.length = s.pool.list.length
  increasing : s.names.Pairwise (· < ·)
  created : ∀ x ∈ s.names, x < s.created

/-- The selections are turns around a set, and the cursor is at the next one. -/
structure Turning (S : Finset ℕ) (s : PoolRun) : Prop where
  named : s.Named
  right : ∀ selection ∈ s.selections, selection.Right
  turns : ∃ a, s.selected = RoundRobin.turns S.sort a s.selections.length ∧
    s.pool.cursor % S.sort.length = (a + s.selections.length) % S.sort.length

theorem turning_start (S : Finset ℕ) (pool : ProxyPool) : (start pool).Turning S where
  named := {
    length := List.length_range
    increasing := List.pairwise_lt_range
    created := fun _ hx => List.mem_range.mp hx }
  right := List.forall_mem_nil _
  turns := ⟨pool.cursor, rfl, rfl⟩

theorem map_snd_entries (h : s.Named) : s.entries.map Prod.snd = s.pool.list :=
  List.map_snd_zip (Nat.le_of_eq h.length.symm)

theorem map_fst_entries (h : s.Named) : s.entries.map Prod.fst = s.names :=
  List.map_fst_zip (Nat.le_of_eq h.length)

theorem Named.map_names (h : s.Named) {l : List ℕ} {pool : ProxyPool} (hsub : l.Sublist s.names)
    (hlength : l.length = pool.list.length) : Named { s with pool, names := l } :=
  ⟨hlength, h.increasing.sublist hsub, fun x hx => h.created x (hsub.subset hx)⟩

theorem Named.upsert (h : s.Named) (proxy : ProxyInstance) (hasLastFailedAt : Bool) :
    (s.step (.upsert proxy hasLastFailedAt)).Named := by
  cases hget : s.pool.getProxy proxy.id with
  | some existing =>
    have hlength : (s.pool.upsert proxy hasLastFailedAt).list.length = s.pool.list.length := by
      rw [ProxyPool.upsert, hget]
      exact ProxyPool.length_modify _ _ _
    rw [step, hget]
    exact h.map_names (List.Sublist.refl _) (h.length.trans hlength.symm)
  | none =>
    have hlength : (s.pool.upsert proxy hasLastFailedAt).list.length = s.pool.list.length + 1 := by
      rw [ProxyPool.upsert, hget]
      exact List.length_append
    rw [step, hget]
    refine ⟨?_, ?_, fun x hx => ?_⟩
    · rw [hlength, List.length_append, h.length]
      rfl
    · exact List.pairwise_append.mpr ⟨h.increasing, List.pairwise_singleton _ _,
        fun x hx y hy => List.mem_singleton.mp hy ▸ h.created x hx⟩
    · obtain hx | hx := List.mem_append.mp hx
      · exact Nat.lt_succ_of_lt (h.created x hx)
      · exact List.mem_singleton.mp hx ▸ Nat.lt_succ_self _

theorem Named.remove (h : s.Named) (id : String) : (s.step (.remove id)).Named := by
  refine h.map_names ?_ ?_
  · rw [← map_fst_entries h]
    exact List.filter_sublist.map _
  · rw [List.length_map, ProxyPool.remove]
    dsimp only
    rw [← map_snd_entries h, List.filter_map, List.length_map]
    rfl

/-- A set that is the one of the tier is in the order of the tier. -/
theorem sort_eq_map_fst (h : s.Named)
    (htier : ((topEntries s.entries now).map Prod.fst).toFinset = S) :
    S.sort = (topEntries s.entries now).map Prod.fst := by
  have hsub : ((topEntries s.entries now).map Prod.fst).Sublist s.names := by
    rw [← map_fst_entries h]
    exact List.filter_sublist.map _
  have hincreasing := h.increasing.sublist hsub
  rw [← htier]
  exact (List.toFinset_sort (· ≤ ·) (hincreasing.imp ne_of_lt)).mpr (hincreasing.imp le_of_lt)

/-- The tier of a selection by the names of its entries. -/
theorem selectProxy_eq (h : s.Named) (now : ℤ) :
    s.pool.selectProxy now =
      if topEntries s.entries now = [] then (none, s.pool)
      else
        ((topEntries s.entries now)[s.pool.cursor % (topEntries s.entries now).length]?.map
          Prod.snd,
          { s.pool with cursor := (s.pool.cursor + 1) % (topEntries s.entries now).length }) := by
  have htier := map_snd_topEntries s.entries now
  rw [map_snd_entries h] at htier
  have hnil : topEntries s.entries now = [] ↔
      s.pool.list.filter (fun p => p.healthy && !p.inCooldown now) = [] := by
    rw [← List.map_eq_nil_iff (f := Prod.snd), htier]
    constructor
    · intro htop
      by_contra hne
      exact topTier_ne_nil hne htop
    · intro hcandidates
      rw [hcandidates]
      rfl
  rw [ProxyPool.selectProxy]
  dsimp only
  simp only [hnil, ← htier, List.getElem?_map, List.length_map]

/-- A selection from the tier of a set serves the next one in turn. -/
theorem Turning.selectProxy (h : s.Turning S) (hsame : SameTier S s (.selectProxy now)) :
    (s.step (.selectProxy now)).Turning S := by
  have hsort := sort_eq_map_fst h.named hsame
  have hlength : S.sort.length = (topEntries s.entries now).length := by
    rw [hsort, List.length_map]
  obtain ⟨a, hselected, hcursor⟩ := h.turns
  rw [step, selectProxy_eq h.named]
  by_cases hnil : topEntries s.entries now = []
  · rw [if_pos hnil]
    exact h
  · rw [if_neg hnil]
    have hlt : s.pool.cursor % (topEntries s.entries now).length <
        (topEntries s.entries now).length := Nat.mod_lt _ (List.length_pos_iff.mpr hnil)
    dsimp only
    rw [List.getElem?_eq_getElem hlt, Option.map_some]
    dsimp only
    refine ⟨⟨h.named.length, h.named.increasing, h.named.created⟩, ?_, a, ?_, ?_⟩
    · intro selection hmem
      obtain hmem | hmem := List.mem_append.mp hmem
      · exact h.right selection hmem
      · exact List.mem_singleton.mp hmem ▸ right_of_mem_topEntries (List.getElem_mem hlt)
    · rw [selected, List.map_append, List.length_append, List.length_singleton,
        RoundRobin.turns_succ, ← hcursor, hlength, hsort, List.getElem?_map,
        List.getElem?_eq_getElem hlt]
      rw [← hsort]
      exact congrArg (· ++ _) hselected
    · dsimp only
      rw [hlength] at hcursor ⊢
      rw [List.length_append, List.length_singleton, Nat.mod_mod, ← Nat.add_assoc, Nat.add_mod,
        hcursor, ← Nat.add_mod]

/-- An upsert leaves the cursor and the selections as they are. -/
theorem step_upsert (s : PoolRun) (proxy : ProxyInstance) (hasLastFailedAt : Bool) :
    (s.step (.upsert proxy hasLastFailedAt)).selections = s.selections ∧
      (s.step (.upsert proxy hasLastFailedAt)).pool.cursor = s.pool.cursor := by
  rw [step, ProxyPool.upsert]
  cases s.pool.getProxy proxy.id <;> exact ⟨rfl, rfl⟩

/-- **Step**: a call that finds the proxies of a set in its tier keeps the turns around the set. -/
theorem Turning.step (h : s.Turning S) {call : PoolCall} (hsame : SameTier S s call) :
    (s.step call).Turning S := by
  cases call with
  | selectProxy now => exact h.selectProxy hsame
  | upsert proxy hasLastFailedAt =>
    obtain ⟨hselections, hcursor⟩ := step_upsert s proxy hasLastFailedAt
    refine ⟨h.named.upsert proxy hasLastFailedAt, ?_, ?_⟩
    · rw [hselections]
      exact h.right
    · rw [selected, hselections, hcursor]
      exact h.turns
  | remove id => exact ⟨h.named.remove id, h.right, h.turns⟩
  | reportSuccess id | reportFailure id now =>
    refine ⟨h.named.map_names (List.Sublist.refl _) ?_, h.right, h.turns⟩
    exact h.named.length.trans (ProxyPool.length_modify _ _ _).symm

/-- Turns around a set are fair to it. -/
theorem Turning.fair (h : s.Turning S) : Fair S s := by
  obtain ⟨a, hselected, -⟩ := h.turns
  refine ⟨fun x hx y hy => ?_, h.right⟩
  rw [hselected]
  exact RoundRobin.count_turns_le (S.sort_nodup _) ((S.mem_sort _).mpr hx) ((S.mem_sort _).mpr hy)

end PoolRun

/-- **Fairness**: from any pool, with any cursor, as long as the eligible proxies of maximal priority
    are the same at each selection and the list is not replaced, two of them have been selected
    equally often, or one of them once more; and every selected proxy was enabled, healthy, out of
    its cooldown and of maximal priority. -/
theorem fair_of_sameTier (pool : ProxyPool) (S : Finset ℕ) {calls : List PoolCall}
    (h : Machine.Along (Machine.total PoolRun.step) (SameTier S) (PoolRun.start pool) calls) :
    Machine.Everywhere (Machine.total PoolRun.step) (Fair S) (PoolRun.start pool) calls := by
  refine Machine.everywhere_of_invariant (PoolRun.Turning S) (Fair S) ?_ (fun _ hs => hs.fair)
    (PoolRun.turning_start S pool) h
  rintro s call s' hs hsame ⟨⟩
  exact hs.step hsame

/-- Two proxies of one priority, and one of a lower priority. -/
def threeProxies : ProxyPool where
  list := [⟨"a", 1, true, 100, none⟩, ⟨"low", 0, true, 100, none⟩, ⟨"b", 1, true, 50, none⟩]
  cursor := 5

theorem fair_threeProxies :
    Machine.Everywhere (Machine.total PoolRun.step) (Fair {0, 2}) (PoolRun.start threeProxies)
      [.selectProxy 0, .reportSuccess "b", .selectProxy 1, .reportFailure "low" 2, .selectProxy 3,
        .remove "low", .selectProxy 4] :=
  fair_of_sameTier threeProxies {0, 2} (by decide)

end Runs

end BotHive.Proxy
