import BotHive.Bots.TenantBoundary
import BotHive.Bots.WalletPrivacy

/-!
# Isolation of tenants

Two users of the command routes. The single-bot routes stay outside the boundary of the
other user whatever they are asked for; the bulk routes do as long as they are not handed an
id of the other user, for they look rows up by id alone.

## Main definitions

- `Request.ListsForeign`: an accepted bulk request with the id of a row of a tenant
- `Isolated`: a tenant's rows are left alone, and the replies do not depend on them

## Main results

- `confined_answer`: a request that lists no foreign id is confined
- `tenantIsolated_iff`: requests are isolated exactly when none of them lists a foreign id
- `not_isolated_bulk`: a bulk request stops a bot of another user
-/

namespace BotHive.Bots

open Backup (ScriptRow)

/-- A bulk request of an admin that is not refused and lists a row of the tenant. -/
def Request.ListsForeign (F : Tenant) (r : Request) : Prop :=
  r.admin = true ∧
    match r.command with
    | .bulkBots ids action => bulkBotsRefusal ids action = none ∧ ∃ id ∈ ids.getD [], F.bots id = true
    | .bulkScripts ids action =>
      bulkScriptsRefusal ids action = none ∧ ∃ id ∈ ids.getD [], F.scripts id = true
    | _ => False

/-- The requests of a user, one after the other. -/
def run (ownerId : String) (w : World) (requests : List Request) : World :=
  requests.foldl (step ownerId) w

section Confined

variable {F : Tenant} {r : Request} {ownerId : String}

open Boundary (confined_pure confined_mapM)

/-- What is done about a bot that is the caller's own. -/
theorem confined_withOwnBot (hne : ownerId ≠ F.ownerId) (id : String) {k : Bot → Api Reply}
    (hk : ∀ b, F.bots b.id = false → F.boundary.Confined (k b) fun _ => True) :
    F.boundary.Confined
      (findOwnBot ownerId id >>= fun found => match found with
        | none => pure sendNotFound
        | some b => k b) fun _ => True := by
  refine (confined_findOwnBot hne id).bind fun found hfound => ?_
  cases found with
  | none => exact confined_pure trivial
  | some b => exact hk b (hfound b rfl)

/-- A job for the bot, and a reply either way. -/
theorem confined_addReply {job : Job} (hjob : F.bots job.id.botId = false) {α : Type}
    {x y : Api α} (hx : F.boundary.Confined x fun _ => True)
    (hy : F.boundary.Confined y fun _ => True) :
    F.boundary.Confined (add r.reachable job >>= fun added => if added = true then x else y)
      fun _ => True := by
  refine (confined_add r.reachable hjob).bind fun added _ => ?_
  split_ifs
  · exact hx
  · exact hy

theorem confined_startBot (hne : ownerId ≠ F.ownerId) (id : String) :
    F.boundary.Confined (startBot r ownerId id) fun _ => True := by
  refine confined_withOwnBot hne id fun b hb => ?_
  refine (confined_setStatus hb "connecting").bind fun _ _ => ?_
  exact confined_addReply hb (confined_pure trivial) (confined_pure trivial)

theorem confined_stopBot (hne : ownerId ≠ F.ownerId) (id : String) :
    F.boundary.Confined (stopBot r ownerId id) fun _ => True := by
  refine confined_withOwnBot hne id fun b hb => ?_
  refine (confined_setStatus hb "idle").bind fun _ _ => ?_
  exact confined_addReply hb (confined_pure trivial) (confined_pure trivial)

/-- A handler that looks a bot up by id, for an id outside. -/
theorem confined_withBot {id : String} (hid : F.bots id = false) {α : Type} {x : Api α}
    {k : Bot → Api α} (hx : F.boundary.Confined x fun _ => True)
    (hk : ∀ b, F.bots b.id = false → F.boundary.Confined (k b) fun _ => True) :
    F.boundary.Confined
      (findBot id >>= fun found => match found with
        | none => x
        | some b => k b) fun _ => True := by
  refine (confined_findBot hid).bind fun found hfound => ?_
  cases found with
  | none => exact hx
  | some b => exact hk b (by rw [hfound b rfl, hid])

theorem confined_restartHandler {id : String} (hid : F.bots id = false) :
    F.boundary.Confined (restartHandler r id) fun _ => True := by
  refine confined_withBot hid (confined_pure trivial) fun b hb => ?_
  refine (confined_setStatus hid "reconnecting").bind fun _ _ => ?_
  refine confined_addReply hb (confined_pure trivial) ?_
  refine (confined_setStatus hid "idle").bind fun _ _ => ?_
  exact confined_pure trivial

theorem confined_updateStored {id : String} (hid : F.bots id = false) (body : UpdateBody) :
    F.boundary.Confined (updateStored r id body) fun _ => True := by
  refine confined_withBot hid (confined_pure trivial) fun b hb => ?_
  cases updatedBot r.env body b with
  | error message => exact confined_pure trivial
  | ok b' =>
    have hwrite : F.boundary.Confined (write fun s => s.modifyBot id fun b =>
        { b with name := b'.name, config := b'.config }) fun _ => True :=
      confined_write (outside_modifyBot hid (fun _ => rfl) fun _ => rfl)
    exact hwrite.bind fun _ _ => confined_pure trivial

theorem confined_patchBot (hne : ownerId ≠ F.ownerId) (id : String) (body : Option UpdateBody) :
    F.boundary.Confined (patchBot r ownerId id body) fun _ => True := by
  cases body with
  | none => exact confined_pure trivial
  | some body => exact confined_withOwnBot hne id fun b hb => confined_updateStored hb body

theorem confined_deleteBot (hne : ownerId ≠ F.ownerId) (id : String) :
    F.boundary.Confined (deleteBot r ownerId id) fun _ => True := by
  refine confined_withOwnBot hne id fun b hb => ?_
  refine (confined_write (outside_removeBot hb)).bind fun _ _ => ?_
  refine confined_addReply hb ?_ (confined_pure trivial)
  refine (confined_deleteBotRuntimeState b.id).bind fun _ _ => ?_
  refine (confined_notifyScriptsChanged [b.id]).bind fun _ _ => ?_
  exact confined_pure trivial

theorem confined_actionHandler {id : String} (hid : F.bots id = false) (type : String)
    (payload : Value) : F.boundary.Confined (actionHandler r id type payload) fun _ => True := by
  refine confined_withBot hid (confined_pure trivial) fun b hb => ?_
  exact confined_addReply hb (confined_pure trivial) (confined_pure trivial)

theorem confined_actionBot (hne : ownerId ≠ F.ownerId) (id : String) (type payload : Value) :
    F.boundary.Confined (actionBot r ownerId id type payload) fun _ => True := by
  refine confined_withOwnBot hne id fun b hb => ?_
  split
  · split_ifs
    · exact confined_pure trivial
    · exact confined_actionHandler hb _ _
  · split_ifs
    · exact confined_pure trivial
    · exact confined_actionHandler hb _ _
  · exact confined_pure trivial

theorem confined_bulkBotFound (action : String) {id : String} (hid : F.bots id = false) {b : Bot}
    (hb : F.bots b.id = false) :
    F.boundary.Confined (bulkBotFound r action id b) fun _ => True := by
  rw [bulkBotFound]
  split_ifs
  · refine (confined_setStatus hid "connecting").bind fun _ _ => ?_
    exact confined_addReply hb (confined_pure trivial) (confined_pure trivial)
  · refine (confined_setStatus hid "idle").bind fun _ _ => ?_
    exact confined_addReply hb (confined_pure trivial) (confined_pure trivial)
  · refine (confined_setStatus hid "reconnecting").bind fun _ _ => ?_
    exact confined_addReply hb (confined_pure trivial) (confined_pure trivial)
  · refine (confined_write (outside_removeBot hid)).bind fun _ _ => ?_
    have hdiscard : F.boundary.Confined (discard (add r.reachable (disconnectJob b)))
        fun _ => True :=
      (show F.boundary.Confined (add r.reachable (disconnectJob b)) fun _ => True from
        confined_add r.reachable hb).bind (f := fun _ => pure ())
        fun _ _ => confined_pure trivial
    refine hdiscard.bind fun _ _ => ?_
    refine (confined_deleteBotRuntimeState id).bind fun _ _ => ?_
    exact confined_pure trivial

theorem confined_bulkBot (action : String) {id : String} (hid : F.bots id = false) :
    F.boundary.Confined (bulkBot r action id) fun _ => True :=
  confined_withBot hid (confined_pure trivial) fun _ hb => confined_bulkBotFound action hid hb

theorem confined_bulkScript (action : String) {id : String} (hid : F.scripts id = false) :
    F.boundary.Confined (bulkScript action id) fun _ => True := by
  refine (confined_findScript hid).bind fun found _ => ?_
  cases found with
  | none => exact confined_pure trivial
  | some row =>
    show F.boundary.Confined (bulkScriptFound action id row) _
    rw [bulkScriptFound]
    split_ifs
    · refine (confined_write (outside_removeScript hid)).bind fun _ _ => ?_
      exact confined_pure trivial
    · refine (confined_write (outside_enableScript hid _)).bind fun _ _ => ?_
      exact confined_pure trivial

theorem confined_bulkBots {ids : Option (List String)} {action : String}
    (h : bulkBotsRefusal ids action = none → ∀ id ∈ ids.getD [], F.bots id = false) :
    F.boundary.Confined (bulkBots r ids action) fun _ => True := by
  rw [bulkBots]
  split
  · exact confined_pure trivial
  case h_2 haccepted =>
    refine (confined_mapM fun id hid => confined_bulkBot action (h haccepted id hid)).bind
      fun results _ => ?_
    split_ifs
    · refine (confined_notifyScriptsChanged _).bind fun _ _ => ?_
      exact confined_pure trivial
    · exact confined_pure trivial

theorem confined_bulkScripts {ids : Option (List String)} {action : String}
    (h : bulkScriptsRefusal ids action = none → ∀ id ∈ ids.getD [], F.scripts id = false) :
    F.boundary.Confined (bulkScripts ids action) fun _ => True := by
  rw [bulkScripts]
  split
  · exact confined_pure trivial
  case h_2 haccepted =>
    refine (confined_mapM fun id hid => confined_bulkScript action (h haccepted id hid)).bind
      fun results _ => ?_
    refine (confined_notifyScriptsChanged _).bind fun _ _ => ?_
    exact confined_pure trivial

/-- **Confinement**: a request of another user stays outside the boundary of the tenant,
    unless it is a bulk request with a row of the tenant. -/
theorem confined_answer (hne : ownerId ≠ F.ownerId) (h : ¬ r.ListsForeign F) :
    F.boundary.Confined (r.answer ownerId) fun _ => True := by
  rw [Request.answer]
  split_ifs with hadmin hbulk
  · have hids : ∀ (ids : List String) (own : String → Bool),
        (¬ ∃ id ∈ ids, own id = true) → ∀ id ∈ ids, own id = false := by
      intro ids own hnone id hid
      rw [← Bool.not_eq_true]
      exact fun hown => hnone ⟨id, hid, hown⟩
    rw [Request.ListsForeign, hadmin] at h
    cases hcommand : r.command with
    | start id => exact confined_startBot hne id
    | stop id => exact confined_stopBot hne id
    | restart id =>
      exact confined_withOwnBot hne id fun b hb => confined_restartHandler hb
    | update id body => exact confined_patchBot hne id body
    | delete id => exact confined_deleteBot hne id
    | action id type payload => exact confined_actionBot hne id type payload
    | bulkBots ids action =>
      rw [hcommand] at h
      exact confined_bulkBots fun haccepted =>
        hids _ F.bots fun hforeign => h ⟨rfl, haccepted, hforeign⟩
    | bulkScripts ids action =>
      rw [hcommand] at h
      exact confined_bulkScripts fun haccepted =>
        hids _ F.scripts fun hforeign => h ⟨rfl, haccepted, hforeign⟩
  · exact confined_pure trivial
  · exact confined_pure trivial

end Confined

section Reads

open Boundary (confined_pure confined_mapM)

/-- The boundary that hides nothing: what it confines never forgets a row that was read. -/
def growing : Boundary World where
  Inv _ := True
  hide := id
  Kept w w' := ∀ row ∈ w.reads, row ∈ w'.reads
  kept_refl _ := fun _ h => h
  kept_trans := fun _ _ _ h h' row hrow => h' row (h row hrow)

theorem growing_of {α : Type} {x : Api α} (h : ∀ w, ∀ row ∈ w.reads, row ∈ (x.run w).2.reads) :
    growing.Confined x fun _ => True :=
  fun w _ => ⟨trivial, rfl, h w, trivial⟩

theorem growing_query {ρ : Type} (find : Store → Option ρ) (row : ρ → RowId) :
    growing.Confined (query find row) fun _ => True := by
  refine growing_of fun w r hr => ?_
  simp only [StateT.run, query]
  split
  · exact hr
  · exact List.mem_append_left _ hr

theorem growing_write (f : Store → Store) : growing.Confined (write f) fun _ => True :=
  growing_of fun _ _ hr => hr

theorem growing_add (reachable : Bool) (job : Job) :
    growing.Confined (add reachable job) fun _ => True := by
  refine growing_of fun w r hr => ?_
  cases reachable <;> exact hr

theorem growing_addReply (reachable : Bool) (job : Job) {α : Type} (x y : α) :
    growing.Confined (add reachable job >>= fun added => if added = true then pure x else pure y)
      fun _ => True := by
  refine (growing_add reachable job).bind fun added _ => ?_
  split_ifs
  · exact confined_pure trivial
  · exact confined_pure trivial

theorem growing_notifyScriptsChanged (botIds : List String) :
    growing.Confined (notifyScriptsChanged botIds) fun _ => True :=
  growing_of fun _ _ hr => hr

theorem growing_bulkBotFound (r : Request) (action id : String) (b : Bot) :
    growing.Confined (bulkBotFound r action id b) fun _ => True := by
  rw [bulkBotFound]
  split_ifs
  · exact (growing_write _).bind fun _ _ => growing_addReply _ _ _ _
  · exact (growing_write _).bind fun _ _ => growing_addReply _ _ _ _
  · exact (growing_write _).bind fun _ _ => growing_addReply _ _ _ _
  · refine (growing_write _).bind fun _ _ => ?_
    have hdiscard : growing.Confined (discard (add r.reachable (disconnectJob b)))
        fun _ => True :=
      (growing_add r.reachable (disconnectJob b)).bind (f := fun _ => pure ())
        fun _ _ => confined_pure trivial
    refine hdiscard.bind fun _ _ => ?_
    refine (growing_of (x := deleteBotRuntimeState id) fun _ _ hr => hr).bind fun _ _ => ?_
    exact confined_pure trivial

theorem growing_bulkBot (r : Request) (action id : String) :
    growing.Confined (bulkBot r action id) fun _ => True := by
  refine (growing_query _ _).bind fun found _ => ?_
  cases found with
  | none => exact confined_pure trivial
  | some b => exact growing_bulkBotFound r action id b

theorem growing_bulkScriptFound (action id : String) (row : ScriptRow) :
    growing.Confined (bulkScriptFound action id row) fun _ => True := by
  rw [bulkScriptFound]
  split_ifs
  · exact (growing_write _).bind fun _ _ => confined_pure trivial
  · exact (growing_write _).bind fun _ _ => confined_pure trivial

theorem growing_bulkScript (action id : String) :
    growing.Confined (bulkScript action id) fun _ => True := by
  refine (growing_query _ _).bind fun found _ => ?_
  cases found with
  | none => exact confined_pure trivial
  | some row => exact growing_bulkScriptFound action id row

variable {F : Tenant}

/-- A row of the tenant has been read. -/
def ReadsForeign (F : Tenant) (w : World) : Prop :=
  ∃ row ∈ w.reads, F.owns row = true

theorem ReadsForeign.run {α : Type} {x : Api α} {w : World} (h : ReadsForeign F w)
    (hx : growing.Confined x fun _ => True) : ReadsForeign F (x.run w).2 := by
  obtain ⟨row, hrow, hown⟩ := h
  exact ⟨row, (hx w trivial).2.2.1 row hrow, hown⟩

theorem ReadsForeign.bind {α β : Type} {x : Api α} {f : α → Api β} {w : World}
    (h : ReadsForeign F (x.run w).2) (hf : ∀ a, growing.Confined (f a) fun _ => True) :
    ReadsForeign F ((x >>= f).run w).2 :=
  h.run (hf _)

/-- The tenant's rows are all there: each of the ids has one. -/
structure Present (F : Tenant) (s : Store) : Prop where
  bots : ∀ id, F.bots id = true → ∃ b ∈ s.bots, b.id = id
  scripts : ∀ id, F.scripts id = true → ∃ r ∈ s.scripts, r.id = id ∧ F.bots r.botId = true

/-- Where the tenant's rows are the same, they are still there. -/
theorem Present.of_restrict {s s' : Store} (h : Present F s)
    (hrows : s'.restrict F.bots = s.restrict F.bots) : Present F s' := by
  have hbots : s'.bots.filter (fun b => F.bots b.id) = s.bots.filter fun b => F.bots b.id :=
    congrArg (fun s : Store => s.bots) hrows
  have hscripts : s'.scripts.filter (fun r => F.bots r.botId) =
      s.scripts.filter fun r => F.bots r.botId :=
    congrArg (fun s : Store => s.scripts) hrows
  constructor
  · intro id hid
    obtain ⟨b, hb, rfl⟩ := h.bots id hid
    have hmem : b ∈ s'.bots.filter fun b => F.bots b.id := by
      rw [hbots]
      exact List.mem_filter.mpr ⟨hb, hid⟩
    exact ⟨b, List.mem_of_mem_filter hmem, rfl⟩
  · intro id hid
    obtain ⟨r, hr, rfl, hbot⟩ := h.scripts id hid
    have hmem : r ∈ s'.scripts.filter fun r => F.bots r.botId := by
      rw [hscripts]
      exact List.mem_filter.mpr ⟨hr, hbot⟩
    exact ⟨r, List.mem_of_mem_filter hmem, rfl, hbot⟩

/-- A query that finds a row of the tenant reads it. -/
theorem reads_query {ρ α : Type} {f : Store → Option ρ} {g : ρ → RowId} {w : World} {x : ρ}
    (hfind : f w.store = some x) (hown : F.owns (g x) = true) {k : Option ρ → Api α}
    (hk : ∀ found, growing.Confined (k found) fun _ => True) :
    ReadsForeign F ((query f g >>= k).run w).2 := by
  have hread : ReadsForeign F ((query f g).run w).2 := by
    simp only [StateT.run, query, hfind]
    exact ⟨g x, List.mem_append_right _ (List.mem_singleton_self _), hown⟩
  exact hread.bind hk

theorem reads_bulkBot {r : Request} {action id : String} {w : World} (hw : Present F w.store)
    (hid : F.bots id = true) : ReadsForeign F ((bulkBot r action id).run w).2 := by
  obtain ⟨b, hb, hbid⟩ := hw.bots id hid
  obtain ⟨b', hfind⟩ : ∃ b', w.store.findBot id = some b' := by
    refine Option.isSome_iff_exists.mp (List.find?_isSome.mpr ⟨b, hb, ?_⟩)
    exact decide_eq_true hbid
  have hid' : b'.id = id := by simpa using List.find?_some hfind
  refine reads_query (f := fun s => s.findBot id) hfind ?_ fun found => ?_
  · show F.bots b'.id = true
    rw [hid', hid]
  · cases found with
    | none => exact confined_pure trivial
    | some b => exact growing_bulkBotFound r action id b

theorem reads_bulkScript {action id : String} {w : World} (hw : Present F w.store)
    (hid : F.scripts id = true) : ReadsForeign F ((bulkScript action id).run w).2 := by
  obtain ⟨s, hs, hsid, _⟩ := hw.scripts id hid
  obtain ⟨s', hfind⟩ : ∃ s', w.store.findScript id = some s' := by
    refine Option.isSome_iff_exists.mp (List.find?_isSome.mpr ⟨s, hs, ?_⟩)
    exact decide_eq_true hsid
  have hid' : s'.id = id := by simpa using List.find?_some hfind
  refine reads_query (f := fun s => s.findScript id) hfind ?_ fun found => ?_
  · show F.scripts s'.id = true
    rw [hid', hid]
  · cases found with
    | none => exact confined_pure trivial
    | some row => exact growing_bulkScriptFound action id row

/-- A loop that reaches an id of the tenant reads its row. -/
theorem reads_mapM {ids : List String} {f : String → Api (BulkResult × Option String)}
    {own : String → Bool}
    (hin : ∀ id, own id = false → F.boundary.Confined (f id) fun _ => True)
    (hout : ∀ id w, Present F w.store → own id = true → ReadsForeign F ((f id).run w).2)
    (hgrow : ∀ id, growing.Confined (f id) fun _ => True) (h : ∃ id ∈ ids, own id = true)
    {w : World} (hw : F.Tells w.store) (hpresent : Present F w.store) :
    ReadsForeign F ((ids.mapM f).run w).2 := by
  refine Boundary.mapM_reaches (P := fun id => own id = true)
    (J := fun w => F.Tells w.store ∧ Present F w.store) (R := ReadsForeign F)
    (fun id _ hid w hJ => ?_) (fun id _ hid w hJ => hout id w hJ.2 hid)
    (fun id _ w hR => hR.run (hgrow id)) h ⟨hw, hpresent⟩
  obtain ⟨htells, -, ⟨hrows, -⟩, -⟩ := hin id (by simpa using hid) w hJ.1
  exact ⟨htells, hJ.2.of_restrict hrows⟩

/-- **The defect**: an accepted bulk request reads the rows of the tenant that it lists. -/
theorem readsForeign_answer {r : Request} {ownerId : String} (h : r.ListsForeign F) {w : World}
    (hw : F.Tells w.store) (hpresent : Present F w.store) :
    ReadsForeign F ((r.answer ownerId).run w).2 := by
  obtain ⟨hadmin, h⟩ := h
  rw [Request.answer, if_pos hadmin]
  cases hcommand : r.command with
  | bulkBots ids action =>
    rw [hcommand] at h
    obtain ⟨haccepted, hforeign⟩ := h
    have hloop : ReadsForeign F (((ids.getD []).mapM (bulkBot r action)).run w).2 :=
      reads_mapM (fun _ => confined_bulkBot action) (fun _ _ => reads_bulkBot)
        (growing_bulkBot r action) hforeign hw hpresent
    show ReadsForeign F ((bulkBots r ids action).run w).2
    simp only [bulkBots, haccepted]
    refine hloop.bind fun results => ?_
    split_ifs
    · exact (growing_notifyScriptsChanged _).bind fun _ _ => confined_pure trivial
    · exact confined_pure trivial
  | bulkScripts ids action =>
    rw [hcommand] at h
    obtain ⟨haccepted, hforeign⟩ := h
    have hloop : ReadsForeign F (((ids.getD []).mapM (bulkScript action)).run w).2 :=
      reads_mapM (fun _ => confined_bulkScript action) (fun _ _ => reads_bulkScript)
        (growing_bulkScript action) hforeign hw hpresent
    show ReadsForeign F ((bulkScripts ids action).run w).2
    simp only [bulkScripts, haccepted]
    refine hloop.bind fun results => ?_
    exact (growing_notifyScriptsChanged _).bind fun _ _ => confined_pure trivial
  | _ =>
    rw [hcommand] at h
    exact h.elim

end Reads

/-- A store whose ids are unique. -/
structure TenantStore extends Store where
  botIds : (bots.map fun b => b.id).Nodup
  scriptIds : (scripts.map fun r => r.id).Nodup

/-- Before the tenant is served, and after any number of the other user's requests, the
    tenant's rows are as they were, and none of them has been read. -/
def LeavesAlone (F : Tenant) (ownerId : String) (store : Store) (requests : List Request) : Prop :=
  ∀ k, F.Untouched (.start store) (run ownerId (.start store) (requests.take k))

/-- The requests of the user `ownerId` leave the rows of the user `other` alone in both stores,
    and are answered the same. -/
def Isolated (ownerId other : String) (s s' : Store) (requests : List Request) : Prop :=
  LeavesAlone (s.tenant other) ownerId s requests ∧
    LeavesAlone (s'.tenant other) ownerId s' requests ∧
    (run ownerId (.start s) requests).replies = (run ownerId (.start s') requests).replies

section Runs

variable {F : Tenant} {ownerId : String}

theorem eq_of_id {α : Type*} {id : α → String} {l : List α} (hl : (l.map id).Nodup) {a b : α}
    (ha : a ∈ l) (hb : b ∈ l) (h : id a = id b) : a = b :=
  List.inj_on_of_nodup_map hl ha hb h

/-- The ids of a tenant's rows tell whose they are. -/
theorem tells_tenant (s : TenantStore) (other : String) : (s.tenant other).Tells s.toStore where
  bots := by
    intro b hb
    show (s.tenant other).bots b.id = decide (b.ownerId = other)
    by_cases hown : b.ownerId = other
    · rw [decide_eq_true hown]
      exact List.any_eq_true.mpr ⟨b, hb, by simp [hown]⟩
    · rw [decide_eq_false hown]
      refine List.any_eq_false.mpr fun b' hb' => ?_
      by_cases hid : b'.id = b.id
      · rw [eq_of_id s.botIds hb' hb hid]
        simp [hown]
      · simp [hid]
  scripts := by
    intro r hr
    cases hbot : (s.tenant other).bots r.botId with
    | true =>
      refine List.any_eq_true.mpr ⟨r, hr, ?_⟩
      rw [Bool.and_eq_true]
      exact ⟨decide_eq_true rfl, hbot⟩
    | false =>
      refine List.any_eq_false.mpr fun r' hr' => ?_
      by_cases hid : r'.id = r.id
      · rw [eq_of_id s.scriptIds hr' hr hid]
        intro hboth
        rw [Bool.and_eq_true] at hboth
        exact absurd (hbot.symm.trans hboth.2) Bool.false_ne_true
      · simp [hid]

theorem present_tenant (s : TenantStore) (other : String) :
    Present (s.tenant other) s.toStore where
  bots := by
    intro id hid
    obtain ⟨b, hb, hown⟩ := List.any_eq_true.mp hid
    simp only [Bool.and_eq_true, decide_eq_true_eq] at hown
    exact ⟨b, hb, hown.1⟩
  scripts := by
    intro id hid
    obtain ⟨r, hr, hown⟩ := List.any_eq_true.mp hid
    rw [Bool.and_eq_true, decide_eq_true_eq] at hown
    exact ⟨r, hr, hown.1, hown.2⟩

/-- A request that lists no foreign id, as a step. -/
theorem step_confined (hne : ownerId ≠ F.ownerId) {r : Request} (h : ¬ r.ListsForeign F)
    {w : World} (hw : F.Tells w.store) :
    F.Tells (step ownerId w r).store ∧
      step ownerId (F.without w) r = F.without (step ownerId w r) ∧
      F.Untouched w (step ownerId w r) := by
  obtain ⟨htells, hhidden, hkept, -⟩ := confined_answer hne h w hw
  refine ⟨htells, ?_, hkept⟩
  exact congrArg (fun answered : Reply × World =>
    { answered.2 with replies := answered.2.replies ++ [answered.1] }) hhidden

/-- Requests that list no foreign id, as a run. -/
theorem run_confined (hne : ownerId ≠ F.ownerId) {requests : List Request}
    (h : ∀ r ∈ requests, ¬ r.ListsForeign F) {w : World} (hw : F.Tells w.store) :
    run ownerId (F.without w) requests = F.without (run ownerId w requests) ∧
      F.Untouched w (run ownerId w requests) := by
  induction requests generalizing w with
  | nil => exact ⟨rfl, F.boundary.kept_refl w⟩
  | cons r rest ih =>
    obtain ⟨htells, hhidden, hkept⟩ := step_confined hne (h r List.mem_cons_self) hw
    obtain ⟨hrest, hkept'⟩ := ih (fun r' hr' => h r' (List.mem_cons_of_mem r hr')) htells
    refine ⟨?_, F.boundary.kept_trans _ _ _ hkept hkept'⟩
    show run ownerId (step ownerId (F.without w) r) rest = _
    rw [hhidden]
    exact hrest

/-- While the tenant's rows are left alone, no request lists one of them. -/
theorem lists_none (hne : ownerId ≠ F.ownerId) {requests : List Request} {w : World}
    (hw : F.Tells w.store) (hpresent : Present F w.store) (hreads : ¬ ReadsForeign F w)
    (h : ∀ k, F.Untouched w (run ownerId w (requests.take k))) :
    ∀ r ∈ requests, ¬ r.ListsForeign F := by
  induction requests generalizing w with
  | nil => exact fun r hr => absurd hr List.not_mem_nil
  | cons r rest ih =>
    have hfirst : F.Untouched w (step ownerId w r) := h 1
    have hunread : ¬ ReadsForeign F (step ownerId w r) := by
      rintro ⟨row, hrow, hown⟩
      rcases hfirst.2 row hrow with hold | hout
      · exact hreads ⟨row, hold, hown⟩
      · exact absurd (hown.symm.trans hout) (by decide)
    have hr : ¬ r.ListsForeign F := fun hforeign =>
      hunread (readsForeign_answer hforeign hw hpresent)
    obtain ⟨htells, -, -⟩ := step_confined hne hr hw
    refine List.forall_mem_cons.mpr ⟨hr, ih htells (hpresent.of_restrict hfirst.1) hunread ?_⟩
    intro k
    obtain ⟨hrows, hlater⟩ := h (k + 1)
    refine ⟨hrows.trans hfirst.1.symm, fun row hrow => ?_⟩
    rcases hlater row hrow with hold | hout
    · refine .inr ?_
      rw [← Bool.not_eq_true]
      exact fun hown => hreads ⟨row, hold, hown⟩
    · exact .inr hout

theorem not_readsForeign_start (F : Tenant) (store : Store) : ¬ ReadsForeign F (.start store) := by
  rintro ⟨row, hrow, -⟩
  cases hrow

theorem leavesAlone_iff (s : TenantStore) {other : String} (hne : ownerId ≠ other)
    (requests : List Request) :
    LeavesAlone (s.tenant other) ownerId s.toStore requests ↔
      ∀ r ∈ requests, ¬ r.ListsForeign (s.tenant other) := by
  constructor
  · intro h
    exact lists_none (F := s.tenant other) hne (tells_tenant s other) (present_tenant s other)
      (not_readsForeign_start _ _) h
  · intro h k
    exact (run_confined (F := s.tenant other) hne (fun r hr => h r (List.mem_of_mem_take hr))
      (tells_tenant s other)).2

/-- **Isolation**: in two stores that differ in the rows of a user only, the requests of
    another user leave these rows alone and are answered the same, exactly when no accepted
    bulk request lists one of them. -/
theorem tenantIsolated_iff (ownerId other : String) (hne : ownerId ≠ other) (s s' : TenantStore)
    (hagree : (s.tenant other).without (.start s.toStore) =
      (s'.tenant other).without (.start s'.toStore))
    (requests : List Request) :
    Isolated ownerId other s.toStore s'.toStore requests ↔
      ∀ r ∈ requests, ¬ r.ListsForeign (s.tenant other) ∧ ¬ r.ListsForeign (s'.tenant other) := by
  have hboth : (∀ r ∈ requests, ¬ r.ListsForeign (s.tenant other) ∧
      ¬ r.ListsForeign (s'.tenant other)) ↔
      LeavesAlone (s.tenant other) ownerId s.toStore requests ∧
        LeavesAlone (s'.tenant other) ownerId s'.toStore requests := by
    rw [leavesAlone_iff s hne, leavesAlone_iff s' hne, forall₂_and]
  rw [hboth]
  constructor
  · rintro ⟨hs, hs', -⟩
    exact ⟨hs, hs'⟩
  · rintro ⟨hs, hs'⟩
    refine ⟨hs, hs', ?_⟩
    obtain ⟨hrun, -⟩ := run_confined (F := s.tenant other) (w := .start s.toStore) hne
      ((leavesAlone_iff s hne requests).mp hs) (tells_tenant s other)
    obtain ⟨hrun', -⟩ := run_confined (F := s'.tenant other) (w := .start s'.toStore) hne
      ((leavesAlone_iff s' hne requests).mp hs') (tells_tenant s' other)
    have hsame : (s.tenant other).without (run ownerId (.start s.toStore) requests) =
        (s'.tenant other).without (run ownerId (.start s'.toStore) requests) := by
      rw [← hrun, ← hrun', hagree]
    have hreplies := congrArg (fun w : World => w.replies) hsame
    exact hreplies

end Runs

section Foreign

def bobsBot : Bot where
  id := "b"
  ownerId := "bob"
  accountId := "acc"
  name := "bot"
  platform := "telegram"
  createdAt := 0
  config := none
  status := "running"

/-- Bob's bot, and nothing of Alice's. -/
def bobsStore : TenantStore where
  accounts := []
  bots := [bobsBot]
  scripts := []
  logs := []
  jobs := []
  botIds := by decide
  scriptIds := List.nodup_nil

/-- An admin asks for a bot to be stopped. -/
def stopRequest (command : BotCommand) : Request where
  admin := true
  reachable := true
  nonce := ""
  env := sampleEnv
  command

/-- The single-bot route leaves Bob's bot alone. -/
theorem tenantIsolated_iff_stop :
    Isolated "alice" "bob" bobsStore.toStore bobsStore.toStore [stopRequest (.stop "b")] ↔
      ∀ r ∈ [stopRequest (.stop "b")], ¬ r.ListsForeign (bobsStore.tenant "bob") ∧
        ¬ r.ListsForeign (bobsStore.tenant "bob") :=
  tenantIsolated_iff "alice" "bob" (by decide) bobsStore bobsStore rfl [stopRequest (.stop "b")]

/-- The bulk route stops Bob's bot for Alice. -/
theorem not_isolated_bulk :
    ¬ Isolated "alice" "bob" bobsStore.toStore bobsStore.toStore
      [stopRequest (.bulkBots (some ["b"]) "stop")] := by
  rintro ⟨h, -, -⟩
  have hrows := congrArg (fun s : Store => s.bots.map fun b => b.status) (h 1).1
  revert hrows
  decide

end Foreign

end BotHive.Bots
