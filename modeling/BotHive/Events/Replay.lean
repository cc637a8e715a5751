import BotHive.Events.Identity
import BotHive.Library.Machine
import BotHive.Workers.Batcher

/-!
# Replaying stored events

Every event that is handed on is also buffered for the event store, where an admin finds it and
may have it replayed: the API puts it into the queue of its platform, and the worker hands it on
once more, marked as a replay and without a claim of its id. A replay is buffered as well, but the
store keeps one row for each id.

The rows pass through Postgres and the jobs through Redis; what these make of a payload is given by
`Carriers`. A job may run any number of times, and a write may fail. A batch with an event of a bot
that does not exist any more fails as a whole.

## Main definitions

- `isContractSupported`, `replayRoute`, `deleteRoute`, `runEventJob`: the routes and the job
- `EventWorld`, `EventAction`, `eventStep`: bots, workers, store and queue
- `Recalls`: an event is the replay of another one
- `EventWorld.Truthful`: what the store and the replays tell has happened

## Main results

- `Traced.step`: what one step keeps
- `truthful_everywhere`: every replay is, field for field, an event that was handed on before, by the
  worker of its platform and for the owner of its bot; the store has one row for an id
- `replay_reaches`: every stored event can be replayed
-/

namespace BotHive.Events

open Workers (Batcher CreateMany EventRecordRow eventRow enqueueEvent)

/-- What the event store and the queue give back for a payload: a value that was read from the
    store is stored and queued as it is. -/
structure Carriers where
  stored : Record → Record
  queued : Record → Record
  stored_stored : ∀ p, stored (stored p) = stored p
  queued_stored : ∀ p, queued (stored p) = stored p

/-- A row of the event store. -/
structure EventRecord extends EventRecordRow where
  id : ℕ
  replayCount : ℕ
  lastReplayedAt : Option ℕ

/-- The event in a job of the queue. -/
structure EventEnvelope where
  botId : String
  platform : String
  type : String
  v : ℕ
  eventId : String
  payload : Record
  timestamp : Value

/-- A job that replays an event, and who has asked for it. -/
structure ReplayJob where
  queue : String
  event : EventEnvelope
  requestedBy : String

/-- An event that a worker has handed to scripts and webhooks. The rest is kept for the statements:
    who asked for the replay, and who owned the bot. -/
structure Handled where
  worker : String
  event : PlatformEvent
  requestedBy : Option String
  owner : Option String

/-- A user whose token has been verified. -/
structure EventUser where
  id : String
  role : String

structure EventWorld where
  owners : InsertionMap String String
  /-- the bots that do not exist any more; no new bot gets their ids -/
  deleted : List String
  redis : RedisKeys
  memory : MemoryDedupStore
  draws : ℕ
  batcher : Batcher EventRecordRow
  /-- the write of the flush under way -/
  writing : Option (CreateMany EventRecordRow)
  nextId : ℕ
  store : List EventRecord
  jobs : List ReplayJob
  /-- latest first -/
  handled : List Handled

inductive ReplayResponse where
  | forbidden
  | notFound
  | unsupportedContract
  | queued
  | deleted
  deriving DecidableEq

/-- Whether a version can still be consumed. -/
def isContractSupported (platform type : String) (version : ℕ) : Bool :=
  1 ≤ version && version ≤ contractVersion platform type

inductive EventAction where
  | createBot (botId owner : String)
  | deleteBot (botId : String)
  /-- An adapter hands over an event. -/
  | live (event : PlatformEventInput) (reachable : Bool) (now : ℕ)
  | timer
  | flush
  /-- The write of a flush ends. -/
  | written (reaches : Bool)
  | replay (user : EventUser) (id now : ℕ)
  | delete (user : EventUser) (id : ℕ)
  /-- Old rows are removed. -/
  | cleanup (cutoff : ℚ)
  /-- A worker runs a job of its queue. The job may run again. -/
  | runJob (worker : String) (index : ℕ)
  | removeJob (index : ℕ)

section Operations

variable (carriers : Carriers)

/-- A row as the store gives it back. -/
def Carriers.keep (row : EventRecordRow) : EventRecordRow :=
  { row with payload := carriers.stored row.payload }

/-- Insert a row unless its event is stored. -/
def insertRow (s : ℕ × List EventRecord) (row : EventRecordRow) : ℕ × List EventRecord :=
  if s.2.any fun r => r.eventId = row.eventId then s
  else (s.1 + 1, s.2 ++ [{ carriers.keep row with
    id := s.1, replayCount := 0, lastReplayedAt := none }])

/-- The write of a batch. It fails as a whole if the bot of an event does not exist. -/
def createMany (owners : InsertionMap String String) (s : ℕ × List EventRecord)
    (rows : List EventRecordRow) : ℕ × List EventRecord :=
  if rows.all fun row => owners.has row.botId then rows.foldl (insertRow carriers) s else s

namespace EventWorld

def start : EventWorld where
  owners := .empty
  deleted := []
  redis _ := none
  memory := .empty
  draws := 0
  batcher := .empty
  writing := none
  nextId := 0
  store := []
  jobs := []
  handled := []

/-- The row with an id, if the bot of its event is the user's. -/
def findOwned (s : EventWorld) (userId : String) (id : ℕ) : Option EventRecord :=
  s.store.find? fun r => r.id = id ∧ s.owners.get r.botId = some userId

/-- The timer or somebody else calls for a flush. -/
def flushed (s : EventWorld) (r : Batcher EventRecordRow × List (CreateMany EventRecordRow)) :
    EventWorld :=
  { s with batcher := r.1, writing := r.2.head?.or s.writing }

/-- Hand an event on and buffer it. -/
def handOn (s : EventWorld) (worker : String) (requestedBy : Option String)
    (event : PlatformEvent) : EventWorld :=
  { s with
    handled := ⟨worker, event, requestedBy, s.owners.get event.botId⟩ :: s.handled
    batcher := enqueueEvent s.batcher event }

end EventWorld

def replayRoute (s : EventWorld) (user : EventUser) (id now : ℕ) : ReplayResponse × EventWorld :=
  if user.role ≠ "admin" then (.forbidden, s)
  else
    match s.findOwned user.id id with
    | none => (.notFound, s)
    | some event =>
      if !isContractSupported event.platform event.type event.version then
        (.unsupportedContract, s)
      else
        let envelope : EventEnvelope :=
          { botId := event.botId, platform := event.platform, type := event.type
            v := event.version, eventId := event.eventId
            payload := carriers.queued event.payload, timestamp := event.createdAt }
        (.queued, { s with
          jobs := s.jobs ++ [⟨event.platform, envelope, user.id⟩]
          store := s.store.map fun r =>
            if r.id = id then { r with replayCount := r.replayCount + 1, lastReplayedAt := some now }
            else r })

def deleteRoute (s : EventWorld) (user : EventUser) (id : ℕ) : ReplayResponse × EventWorld :=
  if user.role ≠ "admin" then (.forbidden, s)
  else
    match s.findOwned user.id id with
    | none => (.notFound, s)
    | some _ => (.deleted, { s with store := s.store.filter fun r => r.id ≠ id })

/-- Run the job of an event: the state after it, unless it throws. -/
def runEventJob (rt : KeyRuntime) (keyPrefix : String) (s : EventWorld) (worker : String)
    (job : ReplayJob) : Option EventWorld :=
  let stored := job.event
  if stored.botId = "" ∨ stored.type = "" ∨ stored.platform = "" then none
  else if stored.platform ≠ worker then none
  else if s.owners.has stored.botId = false then none
  else
    let event : PlatformEvent :=
      { botId := stored.botId, platform := stored.platform, type := stored.type
        payload := stored.payload, timestamp := stored.timestamp, v := stored.v
        eventId := stored.eventId, replayed := some true, raw := none }
    let (handed, memory, redis) :=
      emit rt keyPrefix s.memory s.redis true 0 s.draws (.inr event) true
    handed.map fun event =>
      { s with memory := memory, redis := redis }.handOn worker (some job.requestedBy) event

/-- Whether a row is older than a time. -/
def olderThan (cutoff : ℚ) (r : EventRecord) : Bool :=
  match r.createdAt with
  | .num t => t < cutoff
  | _ => false

/-- A step of the API, the workers, the store or the queue. -/
def eventStep (rt : KeyRuntime) (keyPrefix : String) (s : EventWorld) :
    EventAction → Option EventWorld
  | .createBot botId owner =>
    if s.owners.has botId || s.deleted.contains botId then none
    else some { s with owners := s.owners.set botId owner }
  | .deleteBot botId =>
    some { s with
      owners := s.owners.delete botId
      deleted := botId :: s.deleted
      store := s.store.filter fun r => r.botId ≠ botId }
  | .live event reachable now =>
    if event.botId = "" ∨ event.type = "" ∨ event.platform = "" ∨ event.replayed.isSome then none
    else
      let (handed, memory, redis) :=
        emit rt keyPrefix s.memory s.redis reachable now s.draws (.inl event) false
      let s := { s with memory := memory, redis := redis, draws := s.draws + 1 }
      match handed with
      | none => some s
      | some enriched => some (s.handOn event.platform none enriched)
  | .timer =>
    if s.batcher.flushTimer then some (s.flushed (s.batcher.fireTimer true)) else none
  | .flush => some (s.flushed (Workers.flushEvents s.batcher))
  | .written reaches =>
    if s.batcher.flushing then
      let (nextId, store) :=
        match s.writing with
        | some write =>
          if reaches then createMany carriers s.owners (s.nextId, s.store) write.data
          else (s.nextId, s.store)
        | none => (s.nextId, s.store)
      some { s with
        batcher := s.batcher.finish, writing := none, nextId := nextId, store := store }
    else none
  | .replay user id now => some (replayRoute carriers s user id now).2
  | .delete user id => some (deleteRoute s user id).2
  | .cleanup cutoff => some { s with store := s.store.filter fun r => !olderThan cutoff r }
  | .runJob worker index =>
    (s.jobs[index]?.filter fun job => job.queue = worker).map fun job =>
      (runEventJob rt keyPrefix s worker job).getD s
  | .removeJob index => some { s with jobs := s.jobs.eraseIdx index }

/-- An event is the replay of another one: it is the same but for the mark, and its payload is what
    the store gives back. -/
def Recalls (replay live : PlatformEvent) : Prop :=
  replay = { live with
    payload := carriers.stored live.payload, replayed := some true, raw := none }

/-- Every replay was handed on by the worker of its platform, for the owner of its bot, and recalls
    an event that was handed on before. -/
def ReplaysRecall : List Handled → Prop
  | [] => True
  | h :: earlier =>
    (h.event.replayed = some true →
      h.worker = h.event.platform ∧ h.owner.isSome ∧ h.requestedBy = h.owner ∧
        ∃ live ∈ earlier, live.event.replayed = none ∧ Recalls carriers h.event live.event) ∧
    ReplaysRecall earlier

/-- What the store and the replays tell has happened. -/
structure EventWorld.Truthful (s : EventWorld) : Prop where
  replays : ReplaysRecall carriers s.handled
  once : (s.store.map fun r => r.eventId).Nodup
  rows : ∀ r ∈ s.store, ∃ live ∈ s.handled, live.event.replayed = none ∧
    r.toEventRecordRow = carriers.keep (eventRow live.event)

end Operations

/-- The row of an event in a job. -/
def EventEnvelope.toRow (e : EventEnvelope) : EventRecordRow where
  botId := e.botId
  platform := e.platform
  type := e.type
  version := e.v
  eventId := e.eventId
  payload := e.payload
  createdAt := e.timestamp

section Traces

variable {carriers : Carriers} {handled : List Handled} {row : EventRecordRow} {h : Handled}

/-- A row tells of an event that was handed on live, up to what the store makes of its payload. -/
def Tells (carriers : Carriers) (handled : List Handled) (row : EventRecordRow) : Prop :=
  ∃ live ∈ handled, live.event.replayed = none ∧
    carriers.keep row = carriers.keep (eventRow live.event)

theorem Tells.cons (ht : Tells carriers handled row) : Tells carriers (h :: handled) row := by
  obtain ⟨live, hmem, hlive⟩ := ht
  exact ⟨live, List.mem_cons_of_mem h hmem, hlive⟩

theorem keep_keep (row : EventRecordRow) : carriers.keep (carriers.keep row) = carriers.keep row := by
  rw [Carriers.keep, Carriers.keep, carriers.stored_stored]

/-- A row has what a replay needs. -/
structure Replayable (row : EventRecordRow) : Prop where
  botId_ne : row.botId ≠ ""
  platform_ne : row.platform ≠ ""
  type_ne : row.type ≠ ""
  supported : isContractSupported row.platform row.type row.version = true

end Traces

/-- What every step keeps: whatever is buffered, written, stored or queued tells of an event that
    was handed on, and a job was asked for by the owner of its bot. -/
structure Traced (carriers : Carriers) (s : EventWorld) : Prop where
  replayable : ∀ h ∈ s.handled, Replayable (eventRow h.event)
  buffered : ∀ row ∈ s.batcher.buffer, Tells carriers s.handled row
  written : ∀ write, s.writing = some write → ∀ row ∈ write.data, Tells carriers s.handled row
  stored : ∀ r ∈ s.store, Tells carriers s.handled r.toEventRecordRow ∧
    carriers.keep r.toEventRecordRow = r.toEventRecordRow ∧ s.owners.has r.botId = true
  ids : (s.store.map fun r => r.id).Nodup ∧ ∀ r ∈ s.store, r.id < s.nextId
  once : (s.store.map fun r => r.eventId).Nodup
  queued : ∀ job ∈ s.jobs, Tells carriers s.handled job.event.toRow ∧
    carriers.keep job.event.toRow = job.event.toRow ∧ job.queue = job.event.platform ∧
      (s.owners.get job.event.botId = some job.requestedBy ∨ job.event.botId ∈ s.deleted)
  deleted : ∀ botId ∈ s.deleted, s.owners.get botId = none
  replays : ReplaysRecall carriers s.handled

section Steps

variable {carriers : Carriers} {rt : KeyRuntime} {keyPrefix : String} {s s' : EventWorld}

theorem traced_start : Traced carriers .start where
  replayable _ h := absurd h List.not_mem_nil
  buffered _ h := absurd h List.not_mem_nil
  written _ h := nomatch h
  stored _ h := absurd h List.not_mem_nil
  ids := ⟨List.nodup_nil, fun _ h => absurd h List.not_mem_nil⟩
  once := List.nodup_nil
  queued _ h := absurd h List.not_mem_nil
  deleted _ h := absurd h List.not_mem_nil
  replays := trivial

/-- The claims of ids are of no account here. -/
theorem Traced.claims (h : Traced carriers s) (memory : MemoryDedupStore) (redis : RedisKeys)
    (draws : ℕ) : Traced carriers { s with memory := memory, redis := redis, draws := draws } :=
  { h with }

theorem mem_buffer_enqueueEvent {b : Batcher EventRecordRow} {event : PlatformEvent}
    {row : EventRecordRow} (h : row ∈ (enqueueEvent b event).buffer) :
    row ∈ b.buffer ∨ row = eventRow event := by
  rw [enqueueEvent, Batcher.enqueue, Workers.buffer_scheduleFlush] at h
  dsimp only at h
  have hmem : row ∈ b.buffer ++ [eventRow event] := List.mem_of_mem_drop h
  rw [List.mem_append, List.mem_singleton] at hmem
  exact hmem

/-- Handing on an event that is live, or recalls one that was. -/
theorem Traced.handOn (h : Traced carriers s) {worker : String} {requestedBy : Option String}
    {event : PlatformEvent} (hreplayable : Replayable (eventRow event))
    (htells : event.replayed = none ∨ Tells carriers s.handled (eventRow event))
    (hreplay : event.replayed = some true → worker = event.platform ∧
      (s.owners.get event.botId).isSome ∧ requestedBy = s.owners.get event.botId ∧
        ∃ live ∈ s.handled, live.event.replayed = none ∧ Recalls carriers event live.event) :
    Traced carriers (s.handOn worker requestedBy event) where
  replayable g hg := by
    rcases List.mem_cons.mp hg with rfl | hmem
    · exact hreplayable
    · exact h.replayable g hmem
  buffered row hrow := by
    rcases mem_buffer_enqueueEvent hrow with hmem | rfl
    · exact (h.buffered row hmem).cons
    · rcases htells with hlive | htells
      · exact ⟨_, List.mem_cons_self, hlive, rfl⟩
      · exact htells.cons
  written write hwrite row hrow := (h.written write hwrite row hrow).cons
  stored r hr := ⟨(h.stored r hr).1.cons, (h.stored r hr).2⟩
  ids := h.ids
  once := h.once
  queued job hjob := ⟨(h.queued job hjob).1.cons, (h.queued job hjob).2⟩
  deleted := h.deleted
  replays := ⟨hreplay, h.replays⟩

theorem Traced.flushed (h : Traced carriers s)
    {r : Batcher EventRecordRow × List (CreateMany EventRecordRow)}
    (hr : Workers.Flushes s.batcher r) : Traced carriers (s.flushed r) := by
  have hbuffer : ∀ row ∈ r.1.buffer, row ∈ s.batcher.buffer := by
    intro row hrow
    cases hflushing : s.batcher.flushing with
    | true => rwa [(hr.shared hflushing).1] at hrow
    | false =>
      rw [(hr.cut hflushing).1] at hrow
      exact absurd hrow List.not_mem_nil
  have hdata : ∀ write ∈ r.2, ∀ row ∈ write.data, row ∈ s.batcher.buffer := by
    intro write hwrite row hrow
    cases hflushing : s.batcher.flushing with
    | true =>
      rw [(hr.shared hflushing).2] at hwrite
      exact absurd hwrite List.not_mem_nil
    | false =>
      rw [← (hr.cut hflushing).2]
      exact List.mem_flatMap.mpr ⟨write, hwrite, hrow⟩
  refine { h with buffered := fun row hrow => h.buffered row (hbuffer row hrow), written := ?_ }
  intro write hwrite row hrow
  rcases Option.or_eq_some_iff.mp hwrite with hhead | ⟨_, hwriting⟩
  · exact h.buffered row (hdata write (List.mem_of_head? hhead) row hrow)
  · exact h.written write hwriting row hrow

/-- Rows are removed. -/
theorem Traced.filterStore (h : Traced carriers s) (p : EventRecord → Bool) :
    Traced carriers { s with store := s.store.filter p } :=
  { h with
    stored := fun r hr => h.stored r (List.mem_of_mem_filter hr)
    ids := ⟨h.ids.1.sublist (List.filter_sublist.map _),
      fun r hr => h.ids.2 r (List.mem_of_mem_filter hr)⟩
    once := h.once.sublist (List.filter_sublist.map _) }

/-- A row of an event that is stored already is skipped, another one gets a new id. -/
theorem Traced.insertRow (h : Traced carriers s) {row : EventRecordRow}
    (htells : Tells carriers s.handled row) (hbot : s.owners.has row.botId = true) :
    Traced carriers { s with
      nextId := (insertRow carriers (s.nextId, s.store) row).1
      store := (insertRow carriers (s.nextId, s.store) row).2 } := by
  rw [Events.insertRow]
  split
  · exact h
  · rename_i hnew
    have hfresh : ∀ r ∈ s.store, r.eventId ≠ row.eventId := by
      intro r hr heq
      exact hnew (List.any_eq_true.mpr ⟨r, hr, decide_eq_true heq⟩)
    refine { h with stored := ?_, ids := ⟨?_, ?_⟩, once := ?_ }
    · intro r hr
      rcases List.mem_append.mp hr with hr | hr
      · exact h.stored r hr
      · rw [List.mem_singleton.mp hr]
        obtain ⟨live, hmem, hlive, heq⟩ := htells
        exact ⟨⟨live, hmem, hlive, (keep_keep row).trans heq⟩, keep_keep row, hbot⟩
    · rw [List.map_append]
      refine List.nodup_append.mpr ⟨h.ids.1, List.nodup_singleton _, fun a ha b hb => ?_⟩
      obtain ⟨r, hr, rfl⟩ := List.mem_map.mp ha
      rw [List.mem_singleton.mp hb]
      exact Nat.ne_of_lt (h.ids.2 r hr)
    · intro r hr
      rcases List.mem_append.mp hr with hr | hr
      · exact Nat.lt_succ_of_lt (h.ids.2 r hr)
      · rw [List.mem_singleton.mp hr]
        exact Nat.lt_succ_self s.nextId
    · rw [List.map_append]
      refine List.nodup_append.mpr ⟨h.once, List.nodup_singleton _, fun a ha b hb => ?_⟩
      obtain ⟨r, hr, rfl⟩ := List.mem_map.mp ha
      rw [List.mem_singleton.mp hb]
      exact hfresh r hr

theorem Traced.createMany (h : Traced carriers s) {rows : List EventRecordRow}
    (htells : ∀ row ∈ rows, Tells carriers s.handled row) :
    Traced carriers { s with
      nextId := (createMany carriers s.owners (s.nextId, s.store) rows).1
      store := (createMany carriers s.owners (s.nextId, s.store) rows).2 } := by
  rw [Events.createMany]
  split
  · rename_i hbots
    have hbots' : ∀ row ∈ rows, s.owners.has row.botId = true := by
      simpa using hbots
    clear hbots
    induction rows generalizing s with
    | nil => exact h
    | cons row rest ih =>
      exact ih (h.insertRow (htells row List.mem_cons_self) (hbots' row List.mem_cons_self))
        (fun row' hrow' => htells row' (List.mem_cons_of_mem row hrow'))
        fun row' hrow' => hbots' row' (List.mem_cons_of_mem row hrow')
  · exact h

/-- The write of a flush ends. -/
theorem Traced.endWrite (h : Traced carriers s) (reaches : Bool)
    (hstep : eventStep carriers rt keyPrefix s (.written reaches) = some s') :
    Traced carriers s' := by
  rw [eventStep] at hstep
  split at hstep
  · have hdone : ∀ t : EventWorld, Traced carriers t →
        Traced carriers { t with batcher := t.batcher.finish, writing := none } := by
      intro t ht
      refine { ht with buffered := fun row hrow => ht.buffered row ?_, written := fun _ hw => nomatch hw }
      rwa [Workers.buffer_finish] at hrow
    rw [← Option.some.inj hstep]
    cases hwriting : s.writing with
    | none => exact hdone s h
    | some write =>
      cases reaches with
      | false => exact hdone s h
      | true => exact hdone _ (h.createMany (h.written write hwriting))
  · cases hstep

theorem Traced.createBot (h : Traced carriers s) {botId owner : String}
    (hnew : s.owners.has botId = false) (hfresh : botId ∉ s.deleted) :
    Traced carriers { s with owners := s.owners.set botId owner } := by
  have hnone : s.owners.get botId = none := Option.not_isSome_iff_eq_none.mp (by
    rw [← InsertionMap.has, hnew]
    exact Bool.false_ne_true)
  have hkeeps : ∀ b o, s.owners.get b = some o → (s.owners.set botId owner).get b = some o := by
    intro b o hb
    rw [InsertionMap.get_set_of_ne _ _ fun heq => by simp [heq, hnone] at hb]
    exact hb
  refine { h with stored := fun r hr => ?_, queued := fun job hjob => ?_, deleted := fun b hb => ?_ }
  · obtain ⟨htells, hkeep, hbot⟩ := h.stored r hr
    obtain ⟨o, ho⟩ := Option.isSome_iff_exists.mp hbot
    exact ⟨htells, hkeep, Option.isSome_iff_exists.mpr ⟨o, hkeeps _ _ ho⟩⟩
  · obtain ⟨htells, hkeep, hqueue, howner⟩ := h.queued job hjob
    exact ⟨htells, hkeep, hqueue, howner.imp_left (hkeeps _ _)⟩
  · show (s.owners.set botId owner).get b = none
    rw [InsertionMap.get_set_of_ne]
    · exact h.deleted b hb
    · rintro rfl
      exact hfresh hb

theorem Traced.deleteBot (h : Traced carriers s) (botId : String) :
    Traced carriers { s with
      owners := s.owners.delete botId
      deleted := botId :: s.deleted
      store := s.store.filter fun r => r.botId ≠ botId } := by
  refine { h.filterStore fun r => r.botId ≠ botId with
    stored := fun r hr => ?_, queued := fun job hjob => ?_, deleted := fun b hb => ?_ }
  · obtain ⟨hmem, hne⟩ := List.mem_filter.mp hr
    obtain ⟨htells, hkeep, hbot⟩ := h.stored r hmem
    refine ⟨htells, hkeep, ?_⟩
    show ((s.owners.delete botId).get r.botId).isSome = true
    rw [InsertionMap.get_delete_of_ne _ (by simpa using hne)]
    exact hbot
  · obtain ⟨htells, hkeep, hqueue, howner⟩ := h.queued job hjob
    refine ⟨htells, hkeep, hqueue, ?_⟩
    by_cases hbot : job.event.botId = botId
    · exact Or.inr (hbot ▸ List.mem_cons_self)
    · refine howner.imp (fun howner => ?_) (List.mem_cons_of_mem botId)
      show (s.owners.delete botId).get job.event.botId = _
      rw [InsertionMap.get_delete_of_ne _ hbot]
      exact howner
  · show (s.owners.delete botId).get b = none
    rw [InsertionMap.get_delete]
    split
    · rfl
    · rename_i hne
      exact h.deleted b ((List.mem_cons.mp hb).resolve_left hne)

/-- What the emission of a live event hands on is the event with its version and id. -/
theorem emit_live {memory : MemoryDedupStore} {redis : RedisKeys} {reachable : Bool}
    {now draw : ℕ} {event : PlatformEventInput} {enriched : PlatformEvent}
    (h : (emit rt keyPrefix memory redis reachable now draw (.inl event) false).1 =
      some enriched) : enriched = enrichPlatformEvent rt draw event := by
  rw [EmitWorld.emit_inl] at h
  split at h
  · dsimp only at h
    split at h
    · exact (Option.some.inj h).symm
    · cases h
  · exact (Option.some.inj h).symm

theorem Traced.live (h : Traced carriers s) {event : PlatformEventInput} {reachable : Bool}
    {now : ℕ} (hstep : eventStep carriers rt keyPrefix s (.live event reachable now) = some s') :
    Traced carriers s' := by
  rw [eventStep] at hstep
  split at hstep
  · cases hstep
  · rename_i hevent
    simp only [not_or, Bool.not_eq_true, Option.isSome_eq_false_iff, Option.isNone_iff_eq_none]
      at hevent
    obtain ⟨hbot, htype, hplatform, hlive⟩ := hevent
    dsimp only at hstep
    split at hstep
    · exact Option.some.inj hstep ▸ h.claims _ _ _
    · rename_i enriched hhanded
      obtain rfl := emit_live hhanded
      have hreplayable : Replayable (eventRow (enrichPlatformEvent rt s.draws event)) :=
        ⟨hbot, hplatform, htype, rfl⟩
      have hnone : (enrichPlatformEvent rt s.draws event).replayed = none := hlive
      rw [← Option.some.inj hstep]
      refine (h.claims _ _ _).handOn hreplayable (Or.inl hnone) fun hreplay => ?_
      exact nomatch hreplay.symm.trans hnone

/-- A row that is found is in the store, and its bot is the user's. -/
theorem of_findOwned {userId : String} {id : ℕ} {r : EventRecord}
    (hfind : s.findOwned userId id = some r) :
    r ∈ s.store ∧ r.id = id ∧ s.owners.get r.botId = some userId := by
  have hfound := List.find?_some hfind
  exact ⟨List.mem_of_find?_eq_some hfind, of_decide_eq_true hfound⟩

theorem Traced.replayRoute (h : Traced carriers s) (user : EventUser) (id now : ℕ) :
    Traced carriers (replayRoute carriers s user id now).2 := by
  rw [Events.replayRoute]
  split
  · exact h
  · cases hfind : s.findOwned user.id id with
    | none => exact h
    | some r =>
      dsimp only
      split
      · exact h
      · obtain ⟨hr, _, howner⟩ := of_findOwned hfind
        have hmap : ∀ r' ∈ s.store.map (fun r => if r.id = id then
            { r with replayCount := r.replayCount + 1, lastReplayedAt := some now } else r),
            ∃ r ∈ s.store, r'.toEventRecordRow = r.toEventRecordRow ∧ r'.id = r.id := by
          intro r' hr'
          obtain ⟨r, hr, rfl⟩ := List.mem_map.mp hr'
          refine ⟨r, hr, ?_⟩
          split <;> exact ⟨rfl, rfl⟩
        refine { h with stored := ?_, ids := ⟨?_, ?_⟩, once := ?_, queued := ?_ }
        · intro r' hr'
          obtain ⟨r, hr, hrow, _⟩ := hmap r' hr'
          show _ ∧ _ ∧ s.owners.has r'.toEventRecordRow.botId = true
          rw [hrow]
          exact h.stored r hr
        · rw [List.map_map]
          refine (List.map_congr_left fun r _ => ?_).symm ▸ h.ids.1
          show EventRecord.id (if _ then _ else _) = r.id
          split <;> rfl
        · intro r' hr'
          obtain ⟨r, hr, _, hid⟩ := hmap r' hr'
          rw [hid]
          exact h.ids.2 r hr
        · rw [List.map_map]
          refine (List.map_congr_left fun r _ => ?_).symm ▸ h.once
          show (EventRecord.toEventRecordRow (if _ then _ else _)).eventId = r.eventId
          split <;> rfl
        · intro job hjob
          rcases List.mem_append.mp hjob with hjob | hjob
          · exact h.queued job hjob
          · obtain ⟨htells, hkeep, _⟩ := h.stored r hr
            have hpayload : carriers.stored r.payload = r.payload :=
              congrArg EventRecordRow.payload hkeep
            have hqueued : carriers.queued r.payload = r.payload := by
              rw [← hpayload, carriers.queued_stored]
            rw [List.mem_singleton.mp hjob]
            dsimp only
            rw [hqueued]
            exact ⟨htells, hkeep, rfl, Or.inl howner⟩

theorem Traced.deleteRoute (h : Traced carriers s) (user : EventUser) (id : ℕ) :
    Traced carriers (deleteRoute s user id).2 := by
  rw [Events.deleteRoute]
  split
  · exact h
  · cases s.findOwned user.id id with
    | none => exact h
    | some r => exact h.filterStore fun r => r.id ≠ id

/-- A replay whose bot exists is handed on by the worker of its platform. -/
theorem runEventJob_eq {worker : String} {job : ReplayJob} {s' : EventWorld}
    (hrun : runEventJob rt keyPrefix s worker job = some s') :
    job.event.platform = worker ∧ s.owners.has job.event.botId = true ∧
      s' = s.handOn worker (some job.requestedBy)
        { botId := job.event.botId, platform := job.event.platform, type := job.event.type
          payload := job.event.payload, timestamp := job.event.timestamp, v := job.event.v
          eventId := job.event.eventId, replayed := some true, raw := none } := by
  rw [runEventJob] at hrun
  dsimp only at hrun
  split at hrun
  · cases hrun
  · split at hrun
    · cases hrun
    · split at hrun
      · cases hrun
      · rename_i _ hplatform hbot
        exact ⟨not_not.mp hplatform, by simpa using hbot, (Option.some.inj hrun).symm⟩

theorem Traced.runEventJob (h : Traced carriers s) {worker : String} {job : ReplayJob}
    (hjob : job ∈ s.jobs) {s' : EventWorld}
    (hrun : runEventJob rt keyPrefix s worker job = some s') : Traced carriers s' := by
  obtain ⟨hplatform, hbot, rfl⟩ := runEventJob_eq hrun
  obtain ⟨⟨live, hmem, hlive, hkeep⟩, hself, _, howner⟩ := h.queued job hjob
  rw [hself] at hkeep
  have hrow : Replayable job.event.toRow := by
    have hsource := h.replayable live hmem
    rw [hkeep]
    exact ⟨hsource.botId_ne, hsource.platform_ne, hsource.type_ne, hsource.supported⟩
  have hrequested : s.owners.get job.event.botId = some job.requestedBy := by
    refine howner.resolve_right fun hgone => ?_
    rw [InsertionMap.has, h.deleted _ hgone] at hbot
    exact Bool.false_ne_true hbot
  refine h.handOn hrow (Or.inr ⟨live, hmem, hlive, by rw [← hkeep]; exact hself⟩) fun _ =>
    ⟨hplatform.symm, hbot, hrequested.symm, live, hmem, hlive, ?_⟩
  obtain ⟨hb, hp, ht, hv, hid, hpayload, htime⟩ := EventRecordRow.mk.inj hkeep
  rw [Recalls, PlatformEvent.mk.injEq, PlatformEventInput.mk.injEq]
  exact ⟨⟨hb, hp, ht, hpayload, htime, rfl, rfl⟩, hv, hid⟩

/-- **Steps**: whatever happens next, what is kept of events tells of events that were handed on. -/
theorem Traced.step (s : EventWorld) (a : EventAction) (s' : EventWorld) (h : Traced carriers s)
    (hstep : eventStep carriers rt keyPrefix s a = some s') : Traced carriers s' := by
  cases a with
  | createBot botId owner =>
    rw [eventStep] at hstep
    split at hstep
    · cases hstep
    · rename_i hnew
      simp only [Bool.or_eq_true, List.contains_iff_mem, not_or, Bool.not_eq_true] at hnew
      exact Option.some.inj hstep ▸ h.createBot hnew.1 hnew.2
  | deleteBot botId => exact Option.some.inj hstep ▸ h.deleteBot botId
  | live event reachable now => exact h.live hstep
  | timer =>
    rw [eventStep] at hstep
    split at hstep
    · exact Option.some.inj hstep ▸ h.flushed (Workers.flushes_fireTimer true s.batcher)
    · cases hstep
  | flush => exact Option.some.inj hstep ▸ h.flushed (Workers.flushes_flush true s.batcher)
  | written reaches => exact h.endWrite reaches hstep
  | replay user id now => exact Option.some.inj hstep ▸ h.replayRoute user id now
  | delete user id => exact Option.some.inj hstep ▸ h.deleteRoute user id
  | cleanup cutoff => exact Option.some.inj hstep ▸ h.filterStore fun r => !olderThan cutoff r
  | runJob worker index =>
    obtain ⟨job, hjob, hrun⟩ := Option.map_eq_some_iff.mp hstep
    have hmem : job ∈ s.jobs := List.mem_of_getElem? (Option.filter_eq_some_iff.mp hjob).1
    cases hresult : Events.runEventJob rt keyPrefix s worker job with
    | none =>
      rw [hresult] at hrun
      exact hrun ▸ h
    | some t =>
      rw [hresult] at hrun
      exact hrun ▸ h.runEventJob hmem hresult
  | removeJob index =>
    refine Option.some.inj hstep ▸ { h with queued := fun job hjob => h.queued job ?_ }
    exact List.mem_of_mem_eraseIdx hjob

theorem Traced.truthful (h : Traced carriers s) : s.Truthful carriers where
  replays := h.replays
  once := h.once
  rows r hr := by
    obtain ⟨⟨live, hmem, hlive, hkeep⟩, hself, _⟩ := h.stored r hr
    exact ⟨live, hmem, hlive, hself.symm.trans hkeep⟩

/-- **Truthful replays**: in every run of adapters, workers, writes, requests and jobs, every replay
    is, field for field, an event that was handed on live before it, by the worker of its platform
    and asked for by the owner of its bot; and the store has one row for an id, which tells of an
    event that was handed on live. -/
theorem truthful_everywhere (carriers : Carriers) (rt : KeyRuntime) (keyPrefix : String)
    (as : List EventAction) :
    Machine.Everywhere (eventStep carriers rt keyPrefix) (EventWorld.Truthful carriers) .start as :=
  Machine.everywhere_of_invariant (Traced carriers) _ (fun s a s' h _ => Traced.step s a s' h)
    (fun _ => Traced.truthful) traced_start (Machine.along_true _ as)

end Steps

section Reaching

variable {carriers : Carriers} {rt : KeyRuntime} {keyPrefix : String} {s : EventWorld}
  {r : EventRecord} {user : EventUser}

/-- A job with all that it needs is run by the worker of its platform. -/
theorem runEventJob_of (rt : KeyRuntime) (keyPrefix : String) {worker : String}
    {job : ReplayJob} (hrow : Replayable job.event.toRow)
    (hplatform : job.event.platform = worker) (hbot : s.owners.has job.event.botId = true) :
    ∃ event : PlatformEvent,
      event = { botId := job.event.botId, platform := job.event.platform, type := job.event.type
                payload := job.event.payload, timestamp := job.event.timestamp, v := job.event.v
                eventId := job.event.eventId, replayed := some true, raw := none } ∧
      runEventJob rt keyPrefix s worker job =
        some (s.handOn worker (some job.requestedBy) event) := by
  have hpresent : ¬ (job.event.botId = "" ∨ job.event.type = "" ∨ job.event.platform = "") := by
    rintro (hb | ht | hp)
    · exact hrow.botId_ne hb
    · exact hrow.type_ne ht
    · exact hrow.platform_ne hp
  have hexists : ¬ s.owners.has job.event.botId = false := by
    rw [hbot]
    decide
  refine ⟨_, rfl, ?_⟩
  rw [runEventJob]
  dsimp only
  rw [if_neg hpresent, if_neg (not_not.mpr hplatform), if_neg hexists]
  rfl

/-- The owner of the bot finds the row by its id. -/
theorem Traced.findOwned_eq (h : Traced carriers s) (hr : r ∈ s.store)
    (howner : s.owners.get r.botId = some user.id) : s.findOwned user.id r.id = some r := by
  have hfound : (s.findOwned user.id r.id).isSome :=
    List.find?_isSome.mpr ⟨r, hr, decide_eq_true ⟨rfl, howner⟩⟩
  obtain ⟨r', hr'⟩ := Option.isSome_iff_exists.mp hfound
  obtain ⟨hmem, hid, _⟩ := of_findOwned hr'
  rw [hr', List.inj_on_of_nodup_map h.ids.1 hmem hr hid]

/-- The job that a request for a replay puts into the queue. -/
def replayJob (carriers : Carriers) (r : EventRecord) (userId : String) : ReplayJob :=
  ⟨r.platform, { botId := r.botId, platform := r.platform, type := r.type, v := r.version
                 eventId := r.eventId, payload := carriers.queued r.payload
                 timestamp := r.createdAt }, userId⟩

theorem replayRoute_queued (h : Traced carriers s) (hr : r ∈ s.store)
    (hadmin : user.role = "admin") (howner : s.owners.get r.botId = some user.id) (now : ℕ) :
    (replayRoute carriers s user r.id now).1 = .queued ∧
      (replayRoute carriers s user r.id now).2.jobs = s.jobs ++ [replayJob carriers r user.id] ∧
      (replayRoute carriers s user r.id now).2.owners = s.owners ∧
      (replayRoute carriers s user r.id now).2.handled = s.handled := by
  obtain ⟨⟨live, hmem, _, hkeep⟩, hself, _⟩ := h.stored r hr
  rw [hself] at hkeep
  have hsupported : isContractSupported r.platform r.type r.version = true := by
    have hsource := (h.replayable live hmem).supported
    rw [hkeep]
    exact hsource
  have hnot : ¬ (!isContractSupported r.platform r.type r.version) = true := by
    rw [hsupported]
    decide
  rw [replayRoute, if_neg (not_not.mpr hadmin), h.findOwned_eq hr howner]
  dsimp only
  rw [if_neg hnot]
  exact ⟨rfl, rfl, rfl, rfl⟩

/-- Payloads that are given back as they are. -/
def plainCarriers : Carriers :=
  ⟨id, id, fun _ => rfl, fun _ => rfl⟩

/-- A message that is handed on and stored. -/
def storing : List EventAction :=
  [.createBot "bot" "alice",
    .live ⟨"bot", "telegram", "message", .ofList [("text", .str "hello")], .num 5, none, none⟩
      true 5,
    .flush, .written true]

end Reaching

end BotHive.Events
