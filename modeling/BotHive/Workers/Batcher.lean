import BotHive.Events.PlatformEvent
import BotHive.Library.Machine

/-!
# The batchers

Events and log rows are buffered and written in batches. A flush cuts off the buffered rows and
passes them to one `createMany`; calls that overlap share the flush that is under way. The timer
calls for a flush some time after a row was buffered, and whoever finishes a flush sets the
timer again if rows have come in since.

The two batchers differ in their rows and in whether `createMany` skips the rows that exist.

## Main definitions

- `Batcher`: a buffer with its timer and its flush
- `BatchRun.step`: a row, a call of the timer or of somebody else, the end of a write
- `BatchRun.Delivers`: a flush that ends has passed on what was buffered before it was called for
- `BatchRun.Cuts`: a call does not share a flush while rows are waiting

## Main results

- `BatchRun.delivers_iff_cuts`: the calls of a run deliver what was buffered before them exactly
  when none of them shares a flush while rows are waiting
- `BatchRun.not_delivers_sharedFlush`: a shared flush leaves a row behind
-/

namespace BotHive.Workers

open Events (PlatformEvent Record)

def maxBufferedRows : ℕ := 2000

/-- A row of the event store. -/
structure EventRecordRow where
  botId : String
  platform : String
  type : String
  version : ℕ
  eventId : String
  payload : Record
  createdAt : Value

/-- A row of the log. -/
structure LogRow where
  botId : String
  level : String
  message : String
  logMeta : Record
  createdAt : Value

/-- A call of `createMany`. -/
structure CreateMany (Row : Type) where
  data : List Row
  skipDuplicates : Bool

structure Batcher (Row : Type) where
  buffer : List Row
  /-- whether the timer is set -/
  flushTimer : Bool
  /-- whether a flush is under way -/
  flushing : Bool

namespace Batcher

variable {Row : Type}

def empty : Batcher Row :=
  ⟨[], false, false⟩

def scheduleFlush (b : Batcher Row) : Batcher Row :=
  if b.flushTimer || b.flushing then b else { b with flushTimer := true }

/-- Buffer a row; the oldest rows are dropped when there are too many. -/
def enqueue (b : Batcher Row) (row : Row) : Batcher Row :=
  let buffer := b.buffer ++ [row]
  scheduleFlush { b with buffer := buffer.drop (buffer.length - maxBufferedRows) }

/-- Start a flush unless one is under way, with the `createMany` calls that it makes. -/
def flush (skipDuplicates : Bool) (b : Batcher Row) : Batcher Row × List (CreateMany Row) :=
  if b.flushing then (b, [])
  else
    ({ b with buffer := [], flushing := true },
      if b.buffer = [] then [] else [⟨b.buffer, skipDuplicates⟩])

/-- The timer calls for a flush. -/
def fireTimer (skipDuplicates : Bool) (b : Batcher Row) : Batcher Row × List (CreateMany Row) :=
  { b with flushTimer := false }.flush skipDuplicates

/-- The end of a flush, whether or not the write succeeded. -/
def finish (b : Batcher Row) : Batcher Row :=
  let b := { b with flushing := false }
  if b.buffer = [] then b else b.scheduleFlush

end Batcher

/-- The row of an event. -/
def eventRow (event : PlatformEvent) : EventRecordRow where
  botId := event.botId
  platform := event.platform
  type := event.type
  version := event.v
  eventId := event.eventId
  payload := event.payload
  createdAt := event.timestamp

def enqueueEvent (b : Batcher EventRecordRow) (event : PlatformEvent) : Batcher EventRecordRow :=
  b.enqueue (eventRow event)

def flushEvents : Batcher EventRecordRow → Batcher EventRecordRow × List (CreateMany EventRecordRow) :=
  Batcher.flush true

def enqueueLog (b : Batcher LogRow) (row : LogRow) : Batcher LogRow :=
  b.enqueue row

def flushLogs : Batcher LogRow → Batcher LogRow × List (CreateMany LogRow) :=
  Batcher.flush false

/-- A batcher with what has happened to it. -/
structure BatchRun (Row : Type) where
  batcher : Batcher Row
  /-- the rows that were buffered, in order -/
  enqueued : List Row
  writes : List (CreateMany Row)
  /-- for each call that waits for the flush under way, the rows that were buffered before it -/
  calls : List (List Row)

inductive BatchAction (Row : Type) where
  | enqueue (row : Row)
  | timer
  | flush
  /-- The write under way ends, and the promise of its flush resolves. -/
  | finish

namespace BatchRun

variable {Row : Type}

def start : BatchRun Row :=
  ⟨.empty, [], [], []⟩

/-- The rows that were passed to `createMany`, in order. -/
def passed (s : BatchRun Row) : List Row :=
  s.writes.flatMap CreateMany.data

/-- The state after a call for a flush. -/
def called (s : BatchRun Row) (r : Batcher Row × List (CreateMany Row)) : BatchRun Row where
  batcher := r.1
  enqueued := s.enqueued
  writes := s.writes ++ r.2
  calls := s.calls ++ [s.enqueued]

def step (skipDuplicates : Bool) (s : BatchRun Row) : BatchAction Row → Option (BatchRun Row)
  | .enqueue row =>
    some { s with batcher := s.batcher.enqueue row, enqueued := s.enqueued ++ [row] }
  | .timer =>
    if s.batcher.flushTimer then some (s.called (s.batcher.fireTimer skipDuplicates)) else none
  | .flush => some (s.called (s.batcher.flush skipDuplicates))
  | .finish =>
    if s.batcher.flushing then some { s with batcher := s.batcher.finish, calls := [] } else none

/-- No row comes in while the buffer is full. -/
def Fits (s : BatchRun Row) : BatchAction Row → Prop
  | .enqueue _ => s.batcher.buffer.length < maxBufferedRows
  | _ => True

/-- When a flush ends, the rows that were buffered before a call for it have been passed
    to `createMany`, each of them once and in order. -/
def Delivers (s : BatchRun Row) : BatchAction Row → Prop
  | .finish => ∀ before ∈ s.calls, before <+: s.passed ∧ s.passed <+: s.enqueued
  | _ => True

/-- A call does not share the flush under way while rows are waiting. -/
def Cuts (s : BatchRun Row) : BatchAction Row → Prop
  | .timer | .flush => s.batcher.flushing = true → s.batcher.buffer = []
  | _ => True

end BatchRun

section Calls

variable {Row : Type}

/-- What a call for a flush does: it shares the flush under way, or passes on all that waits. -/
structure Flushes (b : Batcher Row) (r : Batcher Row × List (CreateMany Row)) : Prop where
  flushing : r.1.flushing = true
  shared : b.flushing = true → r.1.buffer = b.buffer ∧ r.2 = []
  cut : b.flushing = false → r.1.buffer = [] ∧ r.2.flatMap CreateMany.data = b.buffer

theorem flushes_flush (skipDuplicates : Bool) (b : Batcher Row) :
    Flushes b (b.flush skipDuplicates) := by
  cases hb : b.flushing with
  | true =>
    have hflush : b.flush skipDuplicates = (b, []) := by
      rw [Batcher.flush, if_pos hb]
    rw [hflush]
    exact ⟨hb, fun _ => ⟨rfl, rfl⟩, fun h => Bool.noConfusion (hb.symm.trans h)⟩
  | false =>
    rw [Batcher.flush, if_neg (by rw [hb]; decide)]
    refine ⟨rfl, fun h => Bool.noConfusion (hb.symm.trans h), fun _ => ⟨rfl, ?_⟩⟩
    by_cases hbuffer : b.buffer = []
    · simp [hbuffer]
    · simp [hbuffer]

theorem flushes_fireTimer (skipDuplicates : Bool) (b : Batcher Row) :
    Flushes b (b.fireTimer skipDuplicates) where
  flushing := (flushes_flush skipDuplicates { b with flushTimer := false }).flushing
  shared := (flushes_flush skipDuplicates { b with flushTimer := false }).shared
  cut := (flushes_flush skipDuplicates { b with flushTimer := false }).cut

@[simp] theorem buffer_scheduleFlush (b : Batcher Row) : b.scheduleFlush.buffer = b.buffer := by
  rw [Batcher.scheduleFlush]
  split_ifs <;> rfl

@[simp] theorem flushing_scheduleFlush (b : Batcher Row) :
    b.scheduleFlush.flushing = b.flushing := by
  rw [Batcher.scheduleFlush]
  split_ifs <;> rfl

@[simp] theorem buffer_finish (b : Batcher Row) : b.finish.buffer = b.buffer := by
  rw [Batcher.finish]
  dsimp only
  split_ifs
  · rfl
  · rw [buffer_scheduleFlush]

@[simp] theorem flushing_enqueue (b : Batcher Row) (row : Row) :
    (b.enqueue row).flushing = b.flushing :=
  flushing_scheduleFlush _

/-- A row that fits goes to the end of the buffer. -/
theorem buffer_enqueue {b : Batcher Row} (h : b.buffer.length < maxBufferedRows) (row : Row) :
    (b.enqueue row).buffer = b.buffer ++ [row] := by
  have hfits : (b.buffer ++ [row]).length - maxBufferedRows = 0 := by
    rw [List.length_append, List.length_singleton]
    omega
  rw [Batcher.enqueue, buffer_scheduleFlush]
  dsimp only
  rw [hfits, List.drop_zero]

end Calls

namespace BatchRun

variable {Row : Type} {skipDuplicates : Bool} {s s' : BatchRun Row} {a : BatchAction Row}

/-- What a step does: a row is buffered, a flush is called for, or one ends. -/
theorem step_cases (h : s.step skipDuplicates a = some s') :
    (∃ row, a = .enqueue row ∧
      s' = { s with batcher := s.batcher.enqueue row, enqueued := s.enqueued ++ [row] }) ∨
    ((s.Cuts a ↔ (s.batcher.flushing = true → s.batcher.buffer = [])) ∧ s.Delivers a ∧
      ∃ r, Flushes s.batcher r ∧ s' = s.called r) ∨
    (a = .finish ∧ s.batcher.flushing = true ∧
      s' = { s with batcher := s.batcher.finish, calls := [] }) := by
  cases a with
  | enqueue row => exact Or.inl ⟨row, rfl, (Option.some.inj h).symm⟩
  | timer =>
    obtain ⟨-, rfl⟩ := by simpa only [step, Option.ite_none_right_eq_some,
      Option.some.injEq] using h
    exact Or.inr (Or.inl ⟨Iff.rfl, trivial, _, flushes_fireTimer skipDuplicates _, rfl⟩)
  | flush =>
    obtain rfl := Option.some.inj h
    exact Or.inr (Or.inl ⟨Iff.rfl, trivial, _, flushes_flush skipDuplicates _, rfl⟩)
  | finish =>
    obtain ⟨hflushing, rfl⟩ := by simpa only [step, Option.ite_none_right_eq_some,
      Option.some.injEq] using h
    exact Or.inr (Or.inr ⟨rfl, hflushing, rfl⟩)

/-- Every buffered row has been passed on or is waiting. -/
def Tracked (s : BatchRun Row) : Prop :=
  s.passed ++ s.batcher.buffer = s.enqueued

/-- Every waiting call is for rows that have been passed on. -/
def Served (s : BatchRun Row) : Prop :=
  ∀ before ∈ s.calls, before <+: s.passed

theorem passed_called (s : BatchRun Row) (r : Batcher Row × List (CreateMany Row)) :
    (s.called r).passed = s.passed ++ r.2.flatMap CreateMany.data :=
  List.flatMap_append

theorem Tracked.step (h : s.Tracked) (hfits : s.Fits a)
    (hstep : s.step skipDuplicates a = some s') : s'.Tracked := by
  rcases step_cases hstep with ⟨row, rfl, rfl⟩ | ⟨-, -, r, hr, rfl⟩ | ⟨rfl, -, rfl⟩
  · show s.passed ++ (s.batcher.enqueue row).buffer = s.enqueued ++ [row]
    rw [buffer_enqueue hfits, ← List.append_assoc, h]
  · show (s.called r).passed ++ r.1.buffer = s.enqueued
    rw [passed_called]
    cases hb : s.batcher.flushing with
    | true =>
      obtain ⟨hbuffer, hnone⟩ := hr.shared hb
      rw [hbuffer, hnone, List.flatMap_nil, List.append_nil]
      exact h
    | false =>
      obtain ⟨hbuffer, hall⟩ := hr.cut hb
      rw [hbuffer, hall, List.append_nil]
      exact h
  · show s.passed ++ s.batcher.finish.buffer = s.enqueued
    rw [buffer_finish]
    exact h

/-- A call that cuts off the rows, or finds none, is for rows that have been passed on. -/
theorem Served.step (h : s.Served) (htracked : s.Tracked) (hcuts : s.Cuts a)
    (hstep : s.step skipDuplicates a = some s') : s'.Served := by
  rcases step_cases hstep with ⟨row, rfl, rfl⟩ | ⟨hiff, -, r, hr, rfl⟩ | ⟨rfl, -, rfl⟩
  · exact h
  · intro before hbefore
    rw [passed_called]
    rcases List.mem_append.mp hbefore with hold | hnew
    · exact (h before hold).trans (List.prefix_append _ _)
    · rw [List.mem_singleton.mp hnew, ← htracked]
      have hall : r.2.flatMap CreateMany.data = s.batcher.buffer := by
        cases hb : s.batcher.flushing with
        | true => rw [(hr.shared hb).2, hiff.mp hcuts hb, List.flatMap_nil]
        | false => exact (hr.cut hb).2
      exact hall.symm ▸ List.prefix_rfl
  · exact fun before hbefore => absurd hbefore List.not_mem_nil

/-- A call waits for a flush that does not have all of its rows. -/
def Stranded (s : BatchRun Row) : Prop :=
  s.batcher.flushing = true ∧ ¬ s.Served

/-- A call that shares a flush while rows are waiting is stranded. -/
theorem stranded_of_not_cuts (htracked : s.Tracked) (hcuts : ¬ s.Cuts a)
    (hstep : s.step skipDuplicates a = some s') : s'.Stranded := by
  rcases step_cases hstep with ⟨row, rfl, rfl⟩ | ⟨hiff, -, r, hr, rfl⟩ | ⟨rfl, -, rfl⟩
  · exact absurd trivial hcuts
  · rw [hiff, Classical.not_imp] at hcuts
    obtain ⟨hb, hbuffer⟩ := hcuts
    refine ⟨hr.flushing, fun hserved => hbuffer ?_⟩
    have hprefix' : s.enqueued <+: (s.called r).passed :=
      hserved _ (List.mem_append_right _ (List.mem_singleton_self _))
    rw [passed_called, (hr.shared hb).2, List.flatMap_nil, List.append_nil, ← htracked]
      at hprefix'
    have hlength := hprefix'.length_le
    rw [List.length_append] at hlength
    exact List.length_eq_zero_iff.mp (by omega)
  · exact absurd trivial hcuts

/-- A stranded call stays so until its flush ends, and then it has not been delivered to. -/
theorem Stranded.step (h : s.Stranded) (hdelivers : s.Delivers a)
    (hstep : s.step skipDuplicates a = some s') : s'.Stranded := by
  obtain ⟨hb, hnot⟩ := h
  rcases step_cases hstep with ⟨row, rfl, rfl⟩ | ⟨-, -, r, hr, rfl⟩ | ⟨rfl, -, rfl⟩
  · exact ⟨(flushing_enqueue _ _).trans hb, hnot⟩
  · refine ⟨hr.flushing, fun hserved => hnot fun before hbefore => ?_⟩
    have hkept := hserved before (List.mem_append_left _ hbefore)
    rwa [passed_called, (hr.shared hb).2, List.flatMap_nil, List.append_nil] at hkept
  · exact absurd (fun before hbefore => (hdelivers before hbefore).1) hnot

theorem tracked_start : (start : BatchRun Row).Tracked :=
  rfl

/-- In a run at whose end no flush is under way, no call that has been delivered to was made while
    rows waited behind another flush. -/
theorem cuts_of_delivers {actions : List (BatchAction Row)} {t : BatchRun Row}
    (htracked : s.Tracked) (hfits : Machine.Along (step skipDuplicates) Fits s actions)
    (hexec : Machine.exec (step skipDuplicates) s actions = some t)
    (hidle : t.batcher.flushing = false)
    (h : Machine.Along (step skipDuplicates) Delivers s actions) :
    Machine.Along (step skipDuplicates) Cuts s actions := by
  refine Machine.along_of_trap Tracked Stranded (fun s a s' hs hok hstep => ?_)
    (fun s a s' hs hok hcuts hstep => ?_) (fun s a s' hs hok hstep => ?_) htracked (hfits.and h)
    hexec ?_
  · exact hs.step hok.1 hstep
  · exact stranded_of_not_cuts hs hcuts hstep
  · exact hs.step hok.2 hstep
  · intro hstranded
    exact Bool.noConfusion (hidle.symm.trans hstranded.1)

/-- **Flushes deliver**: in a run in which no row comes in while the buffer is full, every flush
    that ends has passed on what was buffered before the calls for it, if no call shares a flush
    while rows are waiting; and only then, when all flushes have come to their end. -/
theorem delivers_iff_cuts {actions : List (BatchAction Row)}
    (hfits : Machine.Along (step skipDuplicates) Fits start actions) :
    (Machine.Along (step skipDuplicates) Cuts start actions →
      Machine.Along (step skipDuplicates) Delivers start actions) ∧
    ∀ t, Machine.exec (step skipDuplicates) start actions = some t →
      t.batcher.flushing = false →
      Machine.Along (step skipDuplicates) Delivers start actions →
      Machine.Along (step skipDuplicates) Cuts start actions := by
  constructor
  · intro hcuts
    have hinv : (start : BatchRun Row).Tracked ∧ (start : BatchRun Row).Served :=
      ⟨tracked_start, fun before hbefore => absurd hbefore List.not_mem_nil⟩
    refine Machine.along_of_invariant (fun s => s.Tracked ∧ s.Served) ?_ ?_ hinv (hfits.and hcuts)
    · rintro s a s' ⟨htracked, hserved⟩ ⟨hfit, hcut⟩ hstep
      exact ⟨htracked.step hfit hstep, hserved.step htracked hcut hstep⟩
    · rintro s a s' ⟨htracked, hserved⟩ - -
      cases a with
      | finish =>
        intro before hbefore
        exact ⟨hserved before hbefore, htracked ▸ List.prefix_append _ _⟩
      | _ => trivial
  · intro t hexec hidle
    exact cuts_of_delivers tracked_start hfits hexec hidle

section Runs

instance (s : BatchRun Row) (a : BatchAction Row) : Decidable (s.Fits a) :=
  match a with
  | .enqueue _ => inferInstanceAs (Decidable (_ < _))
  | .timer | .flush | .finish => isTrue trivial

instance [DecidableEq Row] (s : BatchRun Row) (a : BatchAction Row) : Decidable (s.Delivers a) :=
  match a with
  | .finish => inferInstanceAs (Decidable (∀ _ ∈ s.calls, _ ∧ _))
  | .timer | .flush | .enqueue _ => isTrue trivial

/-- The flush of the timer ends before somebody else calls for one. -/
def flushAfterFlush : List (BatchAction String) :=
  [.enqueue "first", .timer, .enqueue "second", .finish, .flush, .finish]

/-- A row comes in while the timer's flush is under way, and a call shares that flush. -/
def sharedFlush : List (BatchAction String) :=
  [.enqueue "first", .timer, .enqueue "second", .flush, .finish]

theorem delivers_iff_cuts_flushAfterFlush :
    (Machine.Along (step true) Cuts start flushAfterFlush →
      Machine.Along (step true) Delivers start flushAfterFlush) ∧
    ∀ t, Machine.exec (step true) start flushAfterFlush = some t →
      t.batcher.flushing = false →
      Machine.Along (step true) Delivers start flushAfterFlush →
      Machine.Along (step true) Cuts start flushAfterFlush :=
  delivers_iff_cuts (by decide)

/-- The call returns while the second row has not been passed on. -/
theorem not_delivers_sharedFlush :
    ¬ ∀ actions : List (BatchAction String), Machine.Along (step true) Fits start actions →
      Machine.Along (step true) Delivers start actions := by
  intro h
  exact absurd (h sharedFlush (by decide)) (by decide)

end Runs

end BatchRun

end BotHive.Workers
