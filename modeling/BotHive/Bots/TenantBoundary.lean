import BotHive.Bots.Commands
import BotHive.Library.Confinement

/-!
# The rows of a tenant as a boundary

What belongs to a tenant: the bots of the tenant, and the scripts, logs and jobs of these
bots. Every operation of the routes on rows of other owners is confined by this boundary:
it does the same without the tenant's rows, leaves them as they are and reads none of them.

## Main definitions

- `Tenant`: the ids of a tenant's rows
- `Store.restrict`: the rows of some of the bots
- `Tenant.boundary`: the boundary

## Main results

- `confined_findOwnBot`: an owner's lookup stays outside
- `confined_findBot`, `confined_write`, `confined_add`: so do lookups and writes by ids of
  other owners
-/

namespace BotHive.Bots

open Backup (ScriptRow)

/-- The rows that belong to the bots that `keep` selects. -/
def Store.restrict (keep : String → Bool) (s : Store) : Store :=
  { s with
    bots := s.bots.filter fun b => keep b.id
    scripts := s.scripts.filter fun r => keep r.botId
    logs := s.logs.filter fun l => keep l.botId
    jobs := s.jobs.filter fun j => keep j.id.botId }

/-- The ids of the bots and of the scripts of a tenant. -/
structure Tenant where
  ownerId : String
  bots : String → Bool
  scripts : String → Bool

/-- What a user owns in a store. -/
def Store.tenant (s : Store) (ownerId : String) : Tenant where
  ownerId
  bots id := s.bots.any fun b => b.id = id && b.ownerId = ownerId
  scripts id := s.scripts.any fun r =>
    r.id = id && s.bots.any fun b => b.id = r.botId && b.ownerId = ownerId

namespace Tenant

variable (F : Tenant)

def owns : RowId → Bool
  | .bot id => F.bots id
  | .script id => F.scripts id

/-- The ids tell who owns the rows of the store. -/
structure Tells (s : Store) : Prop where
  bots : ∀ b ∈ s.bots, F.bots b.id = decide (b.ownerId = F.ownerId)
  scripts : ∀ r ∈ s.scripts, F.scripts r.id = F.bots r.botId

/-- The world without the tenant's rows. -/
def without (w : World) : World :=
  { w with store := w.store.restrict fun id => !F.bots id }

/-- The tenant's rows are the same, and none of them has been read in between. -/
def Untouched (w w' : World) : Prop :=
  w'.store.restrict F.bots = w.store.restrict F.bots ∧
    ∀ row ∈ w'.reads, row ∈ w.reads ∨ F.owns row = false

/-- The tenant's rows are hidden. -/
def boundary : Boundary World where
  Inv w := F.Tells w.store
  hide := F.without
  Kept := F.Untouched
  kept_refl _ := ⟨rfl, fun _ h => .inl h⟩
  kept_trans := by
    rintro w w' w'' ⟨hrows, hreads⟩ ⟨hrows', hreads'⟩
    refine ⟨hrows'.trans hrows, fun row hrow => ?_⟩
    exact (hreads' row hrow).elim (hreads row) .inr

end Tenant

-- ════════════════════════════════════════════════════════════════════════
-- Lookups
-- ════════════════════════════════════════════════════════════════════════

section Lookups

variable {F : Tenant}

theorem find?_filter_of {α : Type*} {p keep : α → Bool} {l : List α}
    (h : ∀ a ∈ l, p a = true → keep a = true) : (l.filter keep).find? p = l.find? p := by
  induction l with
  | nil => rfl
  | cons a rest ih =>
    have hrest := ih fun b hb => h b (List.mem_cons_of_mem a hb)
    cases hp : p a with
    | true =>
      have hkeep := h a List.mem_cons_self hp
      rw [List.filter_cons_of_pos hkeep, List.find?_cons_of_pos hp, List.find?_cons_of_pos hp]
    | false =>
      have hneg : ¬ p a = true := by simp [hp]
      rw [List.find?_cons_of_neg hneg, ← hrest]
      cases hkeep : keep a with
      | true => rw [List.filter_cons_of_pos hkeep, List.find?_cons_of_neg hneg]
      | false => rw [List.filter_cons_of_neg (by simp [hkeep])]

/-- A lookup that returns a row outside the boundary, or none. -/
theorem confined_query {ρ : Type} {f : Store → Option ρ} {g : ρ → RowId} {Q : ρ → Prop}
    (hfind : ∀ s, F.Tells s → f (s.restrict fun id => !F.bots id) = f s)
    (hQ : ∀ s, F.Tells s → ∀ x, f s = some x → F.owns (g x) = false ∧ Q x) :
    F.boundary.Confined (query f g) fun found => ∀ x, found = some x → Q x := by
  intro w hw
  have hhidden : f (F.boundary.hide w).store = f w.store := hfind w.store hw
  simp only [StateT.run, query, hhidden]
  cases hx : f w.store with
  | none => exact ⟨hw, rfl, F.boundary.kept_refl w, nofun⟩
  | some x =>
    obtain ⟨hrow, hQx⟩ := hQ w.store hw x hx
    refine ⟨hw, rfl, ⟨rfl, fun r hr => ?_⟩, ?_⟩
    · rcases List.mem_append.mp hr with hr | hr
      · exact .inl hr
      · rw [List.mem_singleton.mp hr]
        exact .inr hrow
    · rintro y ⟨⟩
      exact hQx

theorem confined_findOwnBot {ownerId : String} (hne : ownerId ≠ F.ownerId) (id : String) :
    F.boundary.Confined (findOwnBot ownerId id) fun found =>
      ∀ b, found = some b → F.bots b.id = false := by
  refine confined_query (f := fun s => s.findOwnBot ownerId id) (g := fun b => .bot b.id)
    (fun s hs => ?_) fun s hs b hb => ?_
  · refine find?_filter_of fun b hb hp => ?_
    simp only [Bool.and_eq_true, decide_eq_true_eq] at hp
    show (!F.bots b.id) = true
    rw [hs.bots b hb, hp.2, decide_eq_false hne]
    rfl
  · have hmem : b ∈ s.bots := List.mem_of_find?_eq_some hb
    have hp := List.find?_some hb
    simp only [Bool.and_eq_true, decide_eq_true_eq] at hp
    have hout : F.bots b.id = false := by rw [hs.bots b hmem, hp.2, decide_eq_false hne]
    exact ⟨hout, hout⟩

theorem confined_findBot {id : String} (hid : F.bots id = false) :
    F.boundary.Confined (findBot id) fun found => ∀ b, found = some b → b.id = id := by
  refine confined_query (f := fun s => s.findBot id) (g := fun b => .bot b.id)
    (fun s hs => ?_) fun s hs b hb => ?_
  · refine find?_filter_of fun b _ hp => ?_
    show (!F.bots b.id) = true
    rw [decide_eq_true_eq.mp hp, hid]
    rfl
  · have hp : b.id = id := by simpa using List.find?_some hb
    refine ⟨?_, hp⟩
    show F.bots b.id = false
    rw [hp, hid]

theorem confined_findScript {id : String} (hid : F.scripts id = false) :
    F.boundary.Confined (findScript id) fun _ => True := by
  refine (confined_query (f := fun s => s.findScript id) (g := fun r => .script r.id)
    (Q := fun _ => True) (fun s hs => ?_) fun s hs r hr => ?_).weaken fun _ _ => trivial
  · refine find?_filter_of fun r hr hp => ?_
    show (!F.bots r.botId) = true
    rw [← hs.scripts r hr, decide_eq_true_eq.mp hp, hid]
    rfl
  · have hp : r.id = id := by simpa using List.find?_some hr
    refine ⟨?_, trivial⟩
    show F.scripts r.id = false
    rw [hp, hid]

end Lookups

-- ════════════════════════════════════════════════════════════════════════
-- Writes
-- ════════════════════════════════════════════════════════════════════════

section Writes

variable {F : Tenant} {s : Store}

/-- A write to the store that stays outside the boundary. -/
structure Outside (F : Tenant) (f : Store → Store) : Prop where
  tells : ∀ s, F.Tells s → F.Tells (f s)
  without : ∀ s, F.Tells s →
    f (s.restrict fun id => !F.bots id) = (f s).restrict fun id => !F.bots id
  rows : ∀ s, F.Tells s → (f s).restrict F.bots = s.restrict F.bots

theorem confined_write {f : Store → Store} (hf : Outside F f) :
    F.boundary.Confined (write f) fun _ => True := by
  intro w hw
  refine ⟨hf.tells w.store hw, ?_, ⟨hf.rows w.store hw, fun _ h => .inl h⟩, trivial⟩
  show ((), { F.without w with store := f (F.without w).store }) = _
  rw [show f (F.without w).store = _ from hf.without w.store hw]
  rfl

/-- Rewriting a bot of another owner. -/
theorem outside_modifyBot {id : String} (hid : F.bots id = false) {f : Bot → Bot}
    (hfid : ∀ b, (f b).id = b.id) (hfowner : ∀ b, (f b).ownerId = b.ownerId) :
    Outside F fun s => s.modifyBot id f where
  tells := by
    intro s hs
    refine ⟨fun b' hb' => ?_, hs.scripts⟩
    obtain ⟨b, hb, rfl⟩ := List.mem_map.mp hb'
    split_ifs
    · rw [hfid, hfowner]
      exact hs.bots b hb
    · exact hs.bots b hb
  without := by
    intro s _
    have hkeep : ((fun b : Bot => !F.bots b.id) ∘ fun b => if b.id = id then f b else b) =
        fun b : Bot => !F.bots b.id := by
      funext b
      simp only [Function.comp_apply]
      split_ifs
      · rw [hfid]
      · rfl
    simp only [Store.modifyBot, Store.restrict, List.filter_map, hkeep]
  rows := by
    intro s _
    have hrows : (s.bots.map fun b => if b.id = id then f b else b).filter (fun b => F.bots b.id) =
        s.bots.filter fun b => F.bots b.id := by
      have hkeep : ((fun b : Bot => F.bots b.id) ∘ fun b => if b.id = id then f b else b) =
          fun b : Bot => F.bots b.id := by
        funext b
        simp only [Function.comp_apply]
        split_ifs
        · rw [hfid]
        · rfl
      rw [List.filter_map, hkeep]
      refine (List.map_congr_left fun b hb => ?_).trans (List.map_id _)
      have hne : b.id ≠ id := by
        intro heq
        have hin := (List.mem_filter.mp hb).2
        rw [heq, hid] at hin
        cases hin
      rw [if_neg hne]
      rfl
    simp only [Store.modifyBot, Store.restrict, hrows]

theorem filter_ne_comm {α : Type*} (p q : α → Bool) (l : List α) :
    (l.filter p).filter q = (l.filter q).filter p := by
  rw [List.filter_filter, List.filter_filter]
  exact List.filter_congr fun a _ => Bool.and_comm _ _

/-- What is removed lies outside. -/
theorem filter_filter_of {α : Type*} {p q : α → Bool} {l : List α}
    (h : ∀ a ∈ l, q a = true → p a = true) : (l.filter p).filter q = l.filter q := by
  rw [List.filter_filter]
  refine List.filter_congr fun a ha => ?_
  cases hq : q a with
  | true => rw [h a ha hq]; rfl
  | false => rfl

/-- Removing a bot of another owner, with its logs and scripts. -/
theorem outside_removeBot {id : String} (hid : F.bots id = false) :
    Outside F fun s => s.removeBot id where
  tells := fun s hs => ⟨fun b hb => hs.bots b (List.mem_of_mem_filter hb),
    fun r hr => hs.scripts r (List.mem_of_mem_filter hr)⟩
  without := by
    intro s _
    simp only [Store.removeBot, Store.restrict, filter_ne_comm (fun b : Bot => !F.bots b.id),
      filter_ne_comm (fun r : ScriptRow => !F.bots r.botId),
      filter_ne_comm (fun l : LogRow => !F.bots l.botId)]
  rows := by
    intro s _
    have hne : ∀ x : String, F.bots x = true → decide (x ≠ id) = true := by
      intro x hx
      refine decide_eq_true fun heq => ?_
      rw [heq, hid] at hx
      cases hx
    simp only [Store.removeBot, Store.restrict]
    rw [filter_filter_of fun (b : Bot) _ => hne b.id, filter_filter_of fun (r : ScriptRow) _ =>
      hne r.botId, filter_filter_of fun (l : LogRow) _ => hne l.botId]

theorem outside_enableScript {id : String} (hid : F.scripts id = false) (enabled : Bool) :
    Outside F fun s => s.enableScript id enabled where
  tells := by
    intro s hs
    refine ⟨hs.bots, fun r' hr' => ?_⟩
    obtain ⟨r, hr, rfl⟩ := List.mem_map.mp hr'
    split_ifs <;> exact hs.scripts r hr
  without := by
    intro s _
    have hkeep : ((fun r : ScriptRow => !F.bots r.botId) ∘
        fun r => if r.id = id then { r with enabled } else r) =
        fun r : ScriptRow => !F.bots r.botId := by
      funext r
      simp only [Function.comp_apply]
      split_ifs <;> rfl
    simp only [Store.enableScript, Store.restrict, List.filter_map, hkeep]
  rows := by
    intro s hs
    have hkeep : ((fun r : ScriptRow => F.bots r.botId) ∘
        fun r => if r.id = id then { r with enabled } else r) =
        fun r : ScriptRow => F.bots r.botId := by
      funext r
      simp only [Function.comp_apply]
      split_ifs <;> rfl
    have hrows : (s.scripts.filter fun r => F.bots r.botId).map
        (fun r => if r.id = id then { r with enabled } else r) =
        s.scripts.filter fun r => F.bots r.botId := by
      refine (List.map_congr_left fun r hr => ?_).trans (List.map_id _)
      obtain ⟨hmem, hin⟩ := List.mem_filter.mp hr
      have hne : r.id ≠ id := by
        intro heq
        rw [← hs.scripts r hmem, heq, hid] at hin
        cases hin
      rw [if_neg hne]
      rfl
    simp only [Store.enableScript, Store.restrict, List.filter_map, hkeep, hrows]

theorem outside_removeScript {id : String} (hid : F.scripts id = false) :
    Outside F fun s => s.removeScript id where
  tells := fun s hs => ⟨hs.bots, fun r hr => hs.scripts r (List.mem_of_mem_filter hr)⟩
  without := by
    intro s _
    simp only [Store.removeScript, Store.restrict,
      filter_ne_comm (fun r : ScriptRow => !F.bots r.botId)]
  rows := by
    intro s hs
    simp only [Store.removeScript, Store.restrict]
    rw [filter_filter_of fun (r : ScriptRow) hr hin => ?_]
    refine decide_eq_true fun heq => ?_
    rw [← hs.scripts r hr, heq, hid] at hin
    cases hin

/-- A job for a bot of another owner; a queue has the same jobs of that bot without the
    tenant's. -/
theorem outside_addJob {job : Job} (hjob : F.bots job.id.botId = false) :
    Outside F fun s => s.addJob job where
  tells := by
    intro s hs
    simp only [Store.addJob]
    split_ifs
    · exact hs
    · exact ⟨hs.bots, hs.scripts⟩
  without := by
    intro s _
    have hany : (s.jobs.filter fun j => !F.bots j.id.botId).any
        (fun j => j.queue = job.queue && j.id = job.id) =
        s.jobs.any fun j => j.queue = job.queue && j.id = job.id := by
      rw [List.any_filter]
      refine congrArg s.jobs.any (funext fun j => ?_)
      by_cases hid : j.id = job.id
      · simp [hid, hjob]
      · simp [hid]
    simp only [Store.addJob]
    show (if (s.jobs.filter _).any _ = true then _ else _) = _
    rw [hany]
    split_ifs
    · rfl
    · simp only [Store.restrict, List.filter_append]
      rw [List.filter_cons_of_pos (by rw [hjob]; rfl), List.filter_nil]
  rows := by
    intro s _
    simp only [Store.addJob]
    split_ifs
    · rfl
    · simp only [Store.restrict, List.filter_append]
      rw [List.filter_cons_of_neg (by rw [hjob]; exact Bool.false_ne_true), List.filter_nil,
        List.append_nil]

theorem confined_setStatus {id : String} (hid : F.bots id = false) (status : String) :
    F.boundary.Confined (setStatus id status) fun _ => True :=
  confined_write (outside_modifyBot hid (fun _ => rfl) fun _ => rfl)

theorem confined_add (reachable : Bool) {job : Job} (hjob : F.bots job.id.botId = false) :
    F.boundary.Confined (add reachable job) fun _ => True := by
  cases reachable with
  | true =>
    refine (confined_write (outside_addJob hjob)).bind (f := fun _ => pure true) fun _ _ => ?_
    exact Boundary.confined_pure trivial
  | false => exact Boundary.confined_pure trivial

theorem confined_deleteBotRuntimeState (id : String) :
    F.boundary.Confined (deleteBotRuntimeState id) fun _ => True :=
  fun w hw => ⟨hw, rfl, F.boundary.kept_refl w, trivial⟩

theorem confined_notifyScriptsChanged (botIds : List String) :
    F.boundary.Confined (notifyScriptsChanged botIds) fun _ => True :=
  fun w hw => ⟨hw, rfl, F.boundary.kept_refl w, trivial⟩

end Writes

end BotHive.Bots
