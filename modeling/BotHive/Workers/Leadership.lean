import BotHive.Library.Machine
import BotHive.Library.Tasks
import BotHive.Library.TimedKey

/-!
# Leader election

The replicas of a platform compete for a lease in Redis. Each replica calls
`ensureLeadershipState` on a timer; a call takes the free lease or renews its own, and
the replica's flag follows the answer. Calls of one replica may overlap, every
command is one atomic step at Redis, and its answer arrives later or not at all.

## Main definitions

- `LeaderCall`: where a call of `ensureLeadershipState` or `stopLeadership` waits
- `LeaderState.step`: commands, answers, failures and the passing of time
- `SingleLeader`: no two replicas have their flag set
- `LeaseOutlivesLeader`: the steps that let no lease lapse under its leader

## Main results

- `leadsHolds_step`: what one step preserves
- `singleLeader_of_lease_outlives`: along runs of such steps there is a single leader
-/

namespace BotHive.Workers

/-- Milliseconds for which a lease is granted. -/
def leaderTtlMs : ℕ := 30000

theorem leaderTtlMs_pos : 0 < leaderTtlMs := by
  decide

/-- Where a call waits; the replica that makes the call comes first. -/
inductive LeaderCall where
  | idle
  /-- About to send `SET key replica PX ttl NX`. -/
  | set (replica : ℕ)
  | setAnswered (replica : ℕ) (acquired : Bool)
  /-- About to send `GET key`. -/
  | get (replica : ℕ)
  | getAnswered (replica : ℕ) (holder : Option ℕ)
  /-- About to send `PEXPIRE key ttl`. -/
  | pexpire (replica : ℕ)
  | pexpireAnswered (replica : ℕ)
  /-- `tryAcquireLeadership` has returned. -/
  | returned (replica : ℕ) (nowLeader : Bool)
  /-- The flag is set; connections are started or torn down. -/
  | acting (replica : ℕ)
  /-- `stopLeadership` is about to send `GET key`. -/
  | stopGet (replica : ℕ)
  | stopGetAnswered (replica : ℕ) (holder : Option ℕ)
  /-- `stopLeadership` is about to send `DEL key`. -/
  | stopDel (replica : ℕ)
  | stopDelAnswered (replica : ℕ)
  deriving DecidableEq

/-- The call acts on an answer that named its replica as the holder of the lease. -/
def LeaderCall.Names (i : ℕ) : LeaderCall → Prop
  | .setAnswered replica acquired => replica = i ∧ acquired = true
  | .getAnswered replica holder => replica = i ∧ holder = some i
  | .pexpire replica | .pexpireAnswered replica => replica = i
  | .returned replica nowLeader => replica = i ∧ nowLeader = true
  | _ => False

structure LeaderState where
  now : ℕ
  lease : Option (TimedKey ℕ)
  isLeader : ℕ → Bool
  calls : ℕ → LeaderCall
  launched : List ℕ
  /-- The replicas whose timers run. -/
  live : List ℕ
  /-- When a replica last completed a call, or was started. -/
  completedAt : ℕ → ℕ

namespace LeaderState

/-- No replica runs yet. -/
def start : LeaderState where
  now := 0
  lease := none
  isLeader _ := false
  calls _ := .idle
  launched := []
  live := []
  completedAt _ := 0

/-- The replica that the lease names at the moment. -/
def holder (s : LeaderState) : Option ℕ :=
  TimedKey.read s.lease s.now

def goto (s : LeaderState) (c : ℕ) (call : LeaderCall) : LeaderState :=
  { s with calls := Function.update s.calls c call }

/-- A call of a replica has completed. -/
def complete (s : LeaderState) (c i : ℕ) : LeaderState :=
  { s.goto c .idle with completedAt := Function.update s.completedAt i s.now }

/-- What the command that a call is about to send does at Redis. -/
def execute (s : LeaderState) : LeaderCall → LeaderState
  | .set i => { s with lease := (TimedKey.setNX s.lease s.now leaderTtlMs i).2 }
  | .pexpire _ => { s with lease := TimedKey.pexpire s.lease s.now leaderTtlMs }
  | .stopDel _ => { s with lease := none }
  | _ => s

/-- The answer to the command that a call is about to send. -/
def answer (s : LeaderState) : LeaderCall → Option LeaderCall
  | .set i => some (.setAnswered i (TimedKey.setNX s.lease s.now leaderTtlMs i).1)
  | .get i => some (.getAnswered i s.holder)
  | .pexpire i => some (.pexpireAnswered i)
  | .stopGet i => some (.stopGetAnswered i s.holder)
  | .stopDel i => some (.stopDelAnswered i)
  | _ => none

end LeaderState

inductive LeaderAction where
  /-- A new replica starts its timers. -/
  | launch (replica : ℕ)
  /-- A timer of a replica calls `ensureLeadershipState`. -/
  | ensure (call replica : ℕ)
  /-- A replica calls `stopLeadership`. -/
  | stop (call replica : ℕ)
  /-- Redis executes the command of a call and answers it. -/
  | redis (call : ℕ)
  /-- The command of a call fails, before or after Redis has executed it. -/
  | fail (call : ℕ) (executed : Bool)
  /-- A call goes on with the answer it has received. -/
  | resume (call : ℕ)
  /-- Time passes. -/
  | tick (ms : ℕ)

namespace LeaderState

/-- How a call goes on with its answer. -/
def resume (s : LeaderState) (c : ℕ) : Option LeaderState :=
  match s.calls c with
  | .setAnswered i acquired =>
    some (s.goto c (if acquired then .returned i true else .get i))
  | .getAnswered i holder =>
    some (s.goto c (if holder = some i then .pexpire i else .returned i false))
  | .pexpireAnswered i => some (s.goto c (.returned i true))
  | .returned i nowLeader =>
    if nowLeader = s.isLeader i then some (s.complete c i)
    else
      some { s.goto c (.acting i) with isLeader := Function.update s.isLeader i nowLeader }
  | .acting i => some (s.complete c i)
  | .stopGetAnswered i holder => some (s.goto c (if holder = some i then .stopDel i else .idle))
  | .stopDelAnswered _ => some (s.goto c .idle)
  | _ => none

/-- An error ends the call; the flag stays as it is. -/
def fail (s : LeaderState) (c : ℕ) (executed : Bool) : Option LeaderState :=
  let s' := if executed then s.execute (s.calls c) else s
  match s.calls c with
  | .set i | .get i | .pexpire i | .acting i => some (s'.complete c i)
  | .stopGet _ | .stopDel _ => some (s'.goto c .idle)
  | _ => none

def step (s : LeaderState) : LeaderAction → Option LeaderState
  | .launch i =>
    if i ∈ s.launched then none
    else
      some { s with
        launched := i :: s.launched
        live := i :: s.live
        completedAt := Function.update s.completedAt i s.now }
  | .ensure c i =>
    if s.calls c = .idle ∧ i ∈ s.live then some (s.goto c (.set i)) else none
  | .stop c i =>
    if s.calls c = .idle ∧ i ∈ s.live then
      some { s.goto c (.stopGet i) with live := s.live.erase i }
    else none
  | .redis c =>
    (s.answer (s.calls c)).map fun call => (s.execute (s.calls c)).goto c call
  | .fail c executed => s.fail c executed
  | .resume c => s.resume c
  | .tick ms =>
    -- every live replica completes a call at least once in the life of a lease
    if ∀ i ∈ s.live, s.now + ms ≤ s.completedAt i + leaderTtlMs then
      some { s with now := s.now + ms }
    else none

end LeaderState

open LeaderState

/-- No two replicas are leader. -/
def SingleLeader (s : LeaderState) : Prop :=
  ∀ i j, s.isLeader i = true → s.isLeader j = true → i = j

/-- The replica is leader, or one of its calls is about to make it leader. -/
def Leads (s : LeaderState) (i : ℕ) : Prop :=
  s.isLeader i = true ∨ ∃ c, (s.calls c).Names i

/-- The step neither deletes nor lets expire a lease while the replica it names leads. -/
def LeaseOutlivesLeader (s : LeaderState) : LeaderAction → Prop
  | .tick ms => ∀ key, s.lease = some key → Leads s key.value → s.now + ms < key.expiresAt
  | .redis c | .fail c true =>
    ∀ i, s.calls c = .stopDel i → ∀ holder, s.holder = some holder → ¬ Leads s holder
  | _ => True

/-- Whoever leads holds the lease. -/
def LeadsHolds (s : LeaderState) : Prop :=
  ∀ i, Leads s i → s.holder = some i

@[simp] theorem calls_execute (s : LeaderState) (call : LeaderCall) :
    (s.execute call).calls = s.calls := by
  cases call <;> rfl

@[simp] theorem isLeader_execute (s : LeaderState) (call : LeaderCall) :
    (s.execute call).isLeader = s.isLeader := by
  cases call <;> rfl

theorem LeadsHolds.singleLeader {s : LeaderState} (h : LeadsHolds s) : SingleLeader s := by
  intro i j hi hj
  have hholder := (h i (Or.inl hi)).symm.trans (h j (Or.inl hj))
  exact Option.some.inj hholder

/-- Who leads after a call has moved led before, unless the move names it. -/
theorem leads_goto {s s' : LeaderState} {c : ℕ} {call : LeaderCall}
    (hcalls : s'.calls = Function.update s.calls c call) (hflag : s'.isLeader = s.isLeader)
    {i : ℕ} (h : Leads s' i) : Leads s i ∨ call.Names i := by
  rcases h with h | ⟨d, hd⟩
  · rw [hflag] at h
    exact Or.inl (Or.inl h)
  · rw [hcalls] at hd
    by_cases hdc : d = c
    · subst hdc
      rw [Function.update_self] at hd
      exact Or.inr hd
    · rw [Function.update_of_ne hdc] at hd
      exact Or.inl (Or.inr ⟨d, hd⟩)

namespace LeadsHolds

variable {s s' : LeaderState} {c i : ℕ} {call : LeaderCall}

/-- A call moves on, and what names its replica named it before. -/
theorem goto (h : LeadsHolds s) (hnames : ∀ i, call.Names i → Leads s i) :
    LeadsHolds (s.goto c call) := by
  intro i hi
  have hcalls : (s.goto c call).calls = Function.update s.calls c call := rfl
  rcases leads_goto hcalls rfl hi with hold | hnew
  · exact h i hold
  · exact h i (hnames i hnew)

theorem complete (h : LeadsHolds s) : LeadsHolds (s.complete c i) := by
  intro j hj
  have hcalls : (s.complete c i).calls = Function.update s.calls c .idle := rfl
  rcases leads_goto hcalls rfl hj with hold | hnew
  · exact h j hold
  · exact hnew.elim

/-- A command that deletes no lease of a leader keeps the lease of whoever leads. -/
theorem holder_execute (h : LeadsHolds s) (hdel : ∀ i, call = .stopDel i →
    ∀ holder, s.holder = some holder → ¬ Leads s holder) {j : ℕ} (hj : Leads s j) :
    (s.execute call).holder = some j := by
  have hholder := h j hj
  cases call with
  | set i =>
    rw [LeaderState.holder] at hholder ⊢
    rw [execute]
    dsimp only
    rw [TimedKey.setNX_of_taken hholder]
    exact hholder
  | pexpire i =>
    rw [LeaderState.holder] at hholder ⊢
    rw [execute]
    exact (TimedKey.read_pexpire leaderTtlMs_pos).trans hholder
  | stopDel i => exact absurd hj (hdel i rfl j hholder)
  | _ => exact hholder

/-- An answer names a replica only if the lease does, or the call did before. -/
theorem names_answer (hc : s.calls c = call) {reply : LeaderCall}
    (hreply : s.answer call = some reply) {j : ℕ} (hj : reply.Names j) :
    (s.execute call).holder = some j ∨ Leads s j := by
  cases call with
  | set i =>
    cases hreply
    obtain ⟨rfl, hacquired⟩ := hj
    refine Or.inl ?_
    cases hfree : TimedKey.read s.lease s.now with
    | none =>
      rw [LeaderState.holder, execute, TimedKey.setNX_of_free hfree]
      exact TimedKey.read_some_of_ttl_pos leaderTtlMs_pos i
    | some w =>
      rw [TimedKey.setNX_of_taken hfree] at hacquired
      cases hacquired
  | get i =>
    cases hreply
    obtain ⟨rfl, hholder⟩ := hj
    exact Or.inl hholder
  | pexpire i =>
    cases hreply
    exact Or.inr (Or.inr ⟨c, by rw [hc]; exact hj⟩)
  | stopGet i =>
    cases hreply
    exact hj.elim
  | stopDel i =>
    cases hreply
    exact hj.elim
  | _ => cases hreply

theorem redis (h : LeadsHolds s) (hok : LeaseOutlivesLeader s (.redis c)) {reply : LeaderCall}
    (hreply : s.answer (s.calls c) = some reply) :
    LeadsHolds ((s.execute (s.calls c)).goto c reply) := by
  intro j hj
  have hcalls : ((s.execute (s.calls c)).goto c reply).calls = Function.update s.calls c reply := by
    rw [LeaderState.goto, calls_execute]
  have hflag : ((s.execute (s.calls c)).goto c reply).isLeader = s.isLeader :=
    isLeader_execute s (s.calls c)
  change (s.execute (s.calls c)).holder = some j
  rcases leads_goto hcalls hflag hj with hold | hnew
  · exact h.holder_execute hok hold
  · rcases names_answer rfl hreply hnew with hholder | hold
    · exact hholder
    · exact h.holder_execute hok hold

/-- A failed command, executed or not, leaves whoever leads with the lease. -/
theorem execute_if (h : LeadsHolds s) {executed : Bool}
    (hok : LeaseOutlivesLeader s (.fail c executed)) :
    LeadsHolds (if executed then s.execute (s.calls c) else s) := by
  cases executed with
  | false => exact h
  | true =>
    intro j hj
    apply h.holder_execute hok
    rcases hj with hj | ⟨d, hd⟩
    · rw [if_pos rfl, isLeader_execute] at hj
      exact Or.inl hj
    · rw [if_pos rfl, calls_execute] at hd
      exact Or.inr ⟨d, hd⟩

theorem fail (h : LeadsHolds s) {executed : Bool}
    (hok : LeaseOutlivesLeader s (.fail c executed)) (hstep : s.fail c executed = some s') :
    LeadsHolds s' := by
  have hexec := h.execute_if hok
  rw [LeaderState.fail] at hstep
  cases hc : s.calls c with
  | set i | get i | pexpire i | acting i =>
    rw [hc] at hstep hexec
    cases hstep
    exact hexec.complete
  | stopGet i | stopDel i =>
    rw [hc] at hstep hexec
    cases hstep
    exact hexec.goto nofun
  | _ =>
    rw [hc] at hstep
    cases hstep

theorem resume (h : LeadsHolds s) (hstep : s.resume c = some s') : LeadsHolds s' := by
  rw [LeaderState.resume] at hstep
  have hnames : ∀ i, (s.calls c).Names i → Leads s i := fun i hi => Or.inr ⟨c, hi⟩
  cases hc : s.calls c with
  | setAnswered i acquired =>
    rw [hc] at hstep hnames
    cases hstep
    apply h.goto
    intro j hj
    cases acquired with
    | false => exact hj.elim
    | true => exact hnames j ⟨hj.1, rfl⟩
  | getAnswered i holder =>
    rw [hc] at hstep hnames
    cases hstep
    apply h.goto
    intro j hj
    split_ifs at hj with hholder
    · have hij : i = j := hj
      exact hnames j ⟨hij, hij ▸ hholder⟩
    · exact absurd hj.2 Bool.false_ne_true
  | pexpireAnswered i =>
    rw [hc] at hstep hnames
    cases hstep
    exact h.goto fun j hj => hnames j hj.1
  | returned i nowLeader =>
    rw [hc] at hstep hnames
    dsimp only at hstep
    split_ifs at hstep with hsame
    · cases hstep
      exact h.complete
    · cases hstep
      -- the flag changes: it is set only by a call that already led
      intro j hj
      apply h j
      rcases hj with hj | ⟨d, hd⟩
      · by_cases hji : j = i
        · subst hji
          dsimp only at hj
          rw [Function.update_self] at hj
          exact hnames j ⟨rfl, hj⟩
        · dsimp only at hj
          rw [Function.update_of_ne hji] at hj
          exact Or.inl hj
      · have hcalls : (s.goto c (.acting i)).calls = Function.update s.calls c (.acting i) := rfl
        rcases leads_goto hcalls rfl (Or.inr ⟨d, hd⟩) with hold | hnew
        · exact hold
        · exact hnew.elim
  | acting i =>
    rw [hc] at hstep
    cases hstep
    exact h.complete
  | stopGetAnswered i holder =>
    rw [hc] at hstep
    cases hstep
    apply h.goto
    intro j hj
    split_ifs at hj <;> exact hj.elim
  | stopDelAnswered i =>
    rw [hc] at hstep
    cases hstep
    exact h.goto nofun
  | _ =>
    rw [hc] at hstep
    cases hstep

end LeadsHolds

/-- A step under which no lease lapses while its replica leads keeps the lease with
    whoever leads. -/
theorem leadsHolds_step {s s' : LeaderState} {a : LeaderAction} (h : LeadsHolds s)
    (hok : LeaseOutlivesLeader s a) (hstep : s.step a = some s') : LeadsHolds s' := by
  cases a with
  | launch i =>
    rw [LeaderState.step] at hstep
    split_ifs at hstep
    cases hstep
    exact h
  | ensure c i =>
    rw [LeaderState.step] at hstep
    split_ifs at hstep
    cases hstep
    exact h.goto nofun
  | stop c i =>
    rw [LeaderState.step] at hstep
    split_ifs at hstep
    cases hstep
    have hgoto : LeadsHolds (s.goto c (.stopGet i)) := h.goto nofun
    exact hgoto
  | redis c =>
    obtain ⟨reply, hreply, rfl⟩ := Option.map_eq_some_iff.mp hstep
    exact h.redis hok hreply
  | fail c executed => exact h.fail hok hstep
  | resume c => exact h.resume hstep
  | tick ms =>
    rw [LeaderState.step] at hstep
    split_ifs at hstep
    cases hstep
    intro j hj
    have hleads : Leads s j := hj
    apply TimedKey.read_of_lt_expiresAt (h j hleads)
    intro key hkey
    apply hok key hkey
    -- the visible value of the key is the replica that leads
    have hread := h j hleads
    rw [LeaderState.holder, hkey, TimedKey.read] at hread
    split_ifs at hread
    rw [Option.some.inj hread]
    exact hleads

theorem leadsHolds_start : LeadsHolds .start := by
  rintro i (hi | ⟨c, hc⟩)
  · cases hi
  · exact hc.elim

/-- **Single leader**: as long as no lease lapses while the replica it names leads,
    no two replicas are leader. -/
theorem singleLeader_of_lease_outlives (as : List LeaderAction)
    (hok : Machine.Along LeaderState.step LeaseOutlivesLeader .start as) :
    Machine.Everywhere LeaderState.step SingleLeader .start as :=
  Machine.everywhere_of_invariant LeadsHolds SingleLeader
    (fun _ _ _ h hok hstep => leadsHolds_step h hok hstep) (fun _ h => h.singleLeader)
    leadsHolds_start hok

/-- A replica takes the free lease, becomes leader and renews ten seconds later. -/
theorem singleLeader_of_renewal :
    Machine.Everywhere LeaderState.step SingleLeader .start
      [.launch 0, .ensure 0 0, .redis 0, .resume 0, .resume 0, .resume 0, .tick 10000,
        .ensure 0 0, .redis 0, .resume 0] := by
  apply singleLeader_of_lease_outlives
  rintro _ ⟨⟩
  refine ⟨trivial, ?_⟩
  rintro _ ⟨⟩
  refine ⟨trivial, ?_⟩
  rintro _ ⟨⟩
  refine ⟨by rintro i ⟨⟩, ?_⟩
  iterate 3
    rintro _ ⟨⟩
    refine ⟨trivial, ?_⟩
  rintro _ ⟨⟩
  refine ⟨?_, ?_⟩
  · rintro _ ⟨⟩ _
    decide
  rintro _ ⟨⟩
  refine ⟨trivial, ?_⟩
  rintro _ ⟨⟩
  refine ⟨by rintro i ⟨⟩, ?_⟩
  rintro _ ⟨⟩
  exact ⟨trivial, trivial⟩

/-- Replica 0 is leader when its renewals start to fail; its lease expires after 30
    seconds, replica 1 takes it, and the flag of replica 0 is still set. -/
theorem singleLeader_fails_on_failed_renewals :
    ∃ s, Machine.exec LeaderState.step .start
        [.launch 0, .launch 1,
          .ensure 0 0, .redis 0, .resume 0, .resume 0, .resume 0,
          .ensure 1 1, .redis 1, .resume 1, .redis 1, .resume 1, .resume 1,
          .tick 10000, .ensure 0 0, .fail 0 false,
          .tick 10000, .ensure 0 0, .fail 0 false, .ensure 1 1, .fail 1 false,
          .tick 10000, .ensure 1 1, .redis 1, .resume 1, .resume 1] = some s ∧
      ¬ SingleLeader s := by
  refine ⟨_, rfl, fun h => ?_⟩
  exact absurd (h 0 1 rfl rfl) (by decide)

end BotHive.Workers
