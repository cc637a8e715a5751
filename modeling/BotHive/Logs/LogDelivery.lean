import BotHive.Logs.LogStream

/-!
# What the log stream hub sends

A new socket is always given the last entries that its filter accepts. A broadcast applies the filter
to truthy entries only, so that all sockets get what their filters accept just if each falsy entry
that is pushed is accepted by all sockets it is sent to.

## Main results

- `HubRun.Sound.step`: the backlog holds the last entries, and no socket is held twice
- `right_everywhere_iff`: when every call sends what it should
-/

namespace BotHive.Logs

open LogStreamHub HubRun

variable {S : Type*} [DecidableEq S] {filter : S → Value → Bool} {states : SocketStates S}
  {message : HubMessage} {socket : S} {entry : Value} {hub : LogStreamHub S} {run : HubRun S}

section Broadcast

/-- The sockets that a message is sent to. -/
def reaches (filter : S → Value → Bool) (states : SocketStates S) (message : HubMessage)
    (socket : S) : Bool :=
  !skips filter message socket && states.bufferedAmount socket ≤ MAX_BUFFERED_BYTES

omit [DecidableEq S] in
theorem broadcast_kept (sockets : List S) :
    ((broadcast filter states message sockets).1).Sublist sockets := by
  induction sockets with
  | nil => exact List.Sublist.refl _
  | cons socket rest ih =>
    rw [broadcast]
    dsimp only
    split
    · exact ih.cons_cons socket
    split
    · exact ih.cons socket
    split
    · exact ih.cons socket
    · exact ih.cons_cons socket

omit [DecidableEq S] in
/-- A message is given to each socket that is not skipped and does not overflow. -/
theorem broadcast_sent (sockets : List S) : (broadcast filter states message sockets).2 =
    (sockets.filter (reaches filter states message)).map fun socket => (socket, message) := by
  induction sockets with
  | nil => rfl
  | cons socket rest ih =>
    rw [broadcast]
    dsimp only
    cases hskips : skips filter message socket with
    | true =>
      rw [List.filter_cons_of_neg (by simp [reaches, hskips])]
      exact ih
    | false =>
      rw [if_neg Bool.false_ne_true]
      by_cases hfull : states.bufferedAmount socket > MAX_BUFFERED_BYTES
      · have hreaches : ¬reaches filter states message socket = true := by
          rw [reaches, Bool.and_eq_true, decide_eq_true_eq]
          exact fun h => Nat.not_le.mpr hfull h.2
        rw [if_pos hfull, List.filter_cons_of_neg hreaches]
        exact ih
      · have hreaches : reaches filter states message socket = true := by
          rw [reaches, hskips, Bool.and_eq_true, decide_eq_true_eq]
          exact ⟨rfl, Nat.not_lt.mp hfull⟩
        rw [if_neg hfull, List.filter_cons_of_pos hreaches, List.map_cons, ← ih]
        split <;> rfl

end Broadcast

section Logs

theorem logsTo_append (socket : S) (l l' : List (S × HubMessage)) :
    logsTo socket (l ++ l') = logsTo socket l ++ logsTo socket l' :=
  List.filterMap_append

theorem logsTo_status (socket : S) (sockets : List S) (listeners : ℕ) :
    logsTo socket (sockets.map fun socket => (socket, HubMessage.status listeners)) = [] := by
  rw [logsTo, List.filterMap_map]
  exact List.filterMap_eq_nil_iff.mpr fun _ _ => rfl

/-- A socket that is listed once is given an entry at most once. -/
theorem logsTo_log (socket : S) {sockets : List S} (h : sockets.Nodup) (entry : Value) :
    logsTo socket (sockets.map fun socket => (socket, HubMessage.log entry)) =
      if socket ∈ sockets then [entry] else [] := by
  induction sockets with
  | nil => rfl
  | cons other rest ih =>
    obtain ⟨hother, hrest⟩ := List.nodup_cons.mp h
    rw [List.map_cons, logsTo, List.filterMap_cons, ← logsTo, ih hrest]
    by_cases heq : other = socket
    · subst heq
      simp [hother]
    · simp [heq, Ne.symm heq]

/-- What a new socket is given of the backlog. -/
theorem logsTo_replay (socket : S) (entries : List Value) :
    logsTo socket (entries.filterMap fun entry =>
      if filter socket entry then some (socket, HubMessage.log entry) else none) =
      entries.filter (filter socket) := by
  induction entries with
  | nil => rfl
  | cons entry rest ih =>
    cases hfilter : filter socket entry with
    | true =>
      rw [List.filterMap_cons_some (by rw [hfilter]; rfl), List.filter_cons_of_pos hfilter, ← ih, logsTo,
        List.filterMap_cons_some (by exact if_pos rfl)]
      rfl
    | false =>
      rw [List.filterMap_cons_none (by rw [hfilter]; rfl),
        List.filter_cons_of_neg (by rw [hfilter]; exact Bool.false_ne_true), ih]

/-- The other sockets are given nothing of the backlog. -/
theorem logsTo_replay_of_ne {other : S} (hne : socket ≠ other) (entries : List Value) :
    logsTo other (entries.filterMap fun entry =>
      if filter socket entry then some (socket, HubMessage.log entry) else none) = [] := by
  refine List.filterMap_eq_nil_iff.mpr fun e he => ?_
  obtain ⟨entry, -, he⟩ := List.mem_filterMap.mp he
  split at he
  next =>
    obtain rfl := Option.some.inj he
    exact if_neg hne
  next => cases he

end Logs

section Records

/-- The sockets with one more. -/
def withSocket (sockets : List S) (socket : S) : List S :=
  if socket ∈ sockets then sockets else sockets ++ [socket]

theorem nodup_withSocket {sockets : List S} (h : sockets.Nodup) (socket : S) :
    (withSocket sockets socket).Nodup := by
  rw [withSocket]
  split
  · exact h
  next hnew =>
    refine List.nodup_append.mpr ⟨h, List.nodup_singleton socket, fun a ha b hb => ?_⟩
    rw [List.mem_singleton.mp hb]
    exact ne_of_mem_of_not_mem ha hnew

theorem length_withSocket_le (sockets : List S) (socket : S) :
    (withSocket sockets socket).length ≤ sockets.length + 1 := by
  rw [withSocket]
  split
  · exact Nat.le_succ _
  · rw [List.length_append, List.length_singleton]

variable (filter states) in
/-- What `add` does: a socket too many is refused, any other is given the backlog. -/
theorem add_cases (hub : LogStreamHub S) (socket : S) :
    (MAX_SOCKETS ≤ hub.sockets.length ∧ hub.add filter states socket =
      (false, hub, [(socket, .error "Too many log connections")])) ∨
    (hub.sockets.length < MAX_SOCKETS ∧ ∃ n, hub.add filter states socket =
      (true, { hub with sockets := (broadcast filter states (.status n)
        (withSocket hub.sockets socket)).1 },
        (hub.backlog.toList MAX_BACKLOG).filterMap (fun entry =>
          if filter socket entry then some (socket, HubMessage.log entry) else none) ++
        (broadcast filter states (.status n) (withSocket hub.sockets socket)).2)) := by
  by_cases hfull : MAX_SOCKETS ≤ hub.sockets.length
  · exact Or.inl ⟨hfull, if_pos hfull⟩
  · exact Or.inr ⟨Nat.not_le.mp hfull, _, if_neg hfull⟩

/-- What the hub relies on. -/
structure HubRun.Sound (run : HubRun S) : Prop where
  backlog : run.hub.backlog.Holds 200 run.pushed
  nodup : run.hub.sockets.Nodup

omit [DecidableEq S] in
theorem sound_start : (HubRun.start : HubRun S).Sound :=
  ⟨RingBuffer.holds_empty 200, List.nodup_nil⟩

theorem HubRun.Sound.step (h : run.Sound) (c : HubCall S × SocketStates S) :
    (HubRun.step filter run c).Sound := by
  obtain ⟨call, states⟩ := c
  cases call with
  | add socket =>
    obtain ⟨-, heq⟩ | ⟨-, n, heq⟩ := add_cases filter states run.hub socket
    · simp only [HubRun.step, heq]
      exact ⟨h.backlog, h.nodup⟩
    · simp only [HubRun.step, heq]
      exact ⟨h.backlog, (nodup_withSocket h.nodup socket).sublist (broadcast_kept _)⟩
  | remove socket =>
    exact ⟨h.backlog, (h.nodup.erase socket).sublist (broadcast_kept _)⟩
  | push entry => exact ⟨h.backlog.push entry, h.nodup.sublist (broadcast_kept _)⟩

/-- The status messages are no log entries. -/
theorem logsTo_broadcast_status (socket : S) (n : ℕ) (sockets : List S) :
    logsTo socket (broadcast filter states (.status n) sockets).2 = [] := by
  rw [broadcast_sent, logsTo_status]

/-- What a socket is given by a push. -/
theorem logsTo_push (h : hub.sockets.Nodup) (socket : S) (entry : Value) :
    logsTo socket (hub.push filter states entry).2 =
      if socket ∈ hub.sockets ∧ reaches filter states (.log entry) socket = true then [entry]
      else [] := by
  show logsTo socket (broadcast filter states (.log entry) hub.sockets).2 = _
  rw [broadcast_sent, logsTo_log socket (h.filter _)]
  simp only [List.mem_filter]

/-- A new socket is given the last entries that its filter accepts. -/
theorem right_of_add (h : run.Sound) (socket : S) :
    HubRecord.Right filter ⟨.add socket, run.pushed, (run.hub.add filter states socket).1,
      (run.hub.add filter states socket).2.2⟩ := by
  obtain ⟨-, heq⟩ | ⟨-, n, heq⟩ := add_cases filter states run.hub socket
  · rw [heq]
    exact ⟨nofun, nofun, nofun⟩
  · rw [heq]
    have hlogs : logsTo socket ((run.hub.backlog.toList MAX_BACKLOG).filterMap (fun entry =>
          if filter socket entry then some (socket, HubMessage.log entry) else none) ++
        (broadcast filter states (.status n) (withSocket run.hub.sockets socket)).2) =
        (run.pushed.rtake 200).filter (filter socket) := by
      rw [logsTo_append, logsTo_replay, logsTo_broadcast_status, List.append_nil]
      exact congrArg _ h.backlog.toList_eq
    refine ⟨fun other hcall _ => ?_, fun other entry hentry => ?_, nofun⟩
    · obtain rfl : socket = other := HubCall.add.inj hcall
      exact hlogs
    · by_cases hsame : socket = other
      · subst hsame
        rw [hlogs] at hentry
        exact (List.mem_filter.mp hentry).2
      · rw [logsTo_append, logsTo_replay_of_ne hsame, logsTo_broadcast_status] at hentry
        cases hentry

theorem right_of_remove (socket : S) : HubRecord.Right filter
    ⟨.remove socket, run.pushed, true, (run.hub.remove filter states socket).2⟩ := by
  have hnone (other : S) : logsTo other (run.hub.remove filter states socket).2 = [] :=
    logsTo_broadcast_status other _ _
  refine ⟨nofun, fun other entry hentry => ?_, nofun⟩
  rw [hnone other] at hentry
  cases hentry

/-- A push is right just if an entry that is falsy is accepted where it is sent. -/
theorem right_of_push_iff (h : run.Sound) (entry : Value) : HubRecord.Right filter
    ⟨.push entry, run.pushed, true, (run.hub.push filter states entry).2⟩ ↔
      PassesFilter filter run (.push entry, states) := by
  have hlogs (socket : S) : logsTo socket (run.hub.push filter states entry).2 =
      if socket ∈ run.hub.sockets ∧ reaches filter states (.log entry) socket = true then [entry]
      else [] := logsTo_push h.nodup socket entry
  constructor
  · intro hright entry' hcall hfalsy socket hsocket hroom
    obtain rfl : entry = entry' := HubCall.push.inj hcall
    have hreaches : reaches filter states (.log entry) socket = true := by
      rw [reaches, skips, hfalsy, Bool.and_eq_true, decide_eq_true_eq]
      exact ⟨rfl, hroom⟩
    refine hright.passes socket entry ?_
    rw [hlogs socket, if_pos ⟨hsocket, hreaches⟩]
    exact List.mem_singleton_self entry
  · intro hpasses
    refine ⟨nofun, fun socket e he => ?_, fun entry' hcall socket => ?_⟩
    · rw [hlogs socket] at he
      split at he
      next hsent =>
        obtain ⟨hsocket, hreaches⟩ := hsent
        rw [reaches, skips, Bool.and_eq_true, decide_eq_true_eq] at hreaches
        rw [List.mem_singleton.mp he]
        cases htruthy : entry.truthy with
        | true => simpa [htruthy] using hreaches.1
        | false => exact hpasses entry rfl htruthy socket hsocket hreaches.2
      next => cases he
    · obtain rfl : entry = entry' := HubCall.push.inj hcall
      rw [hlogs socket]
      split
      · exact Or.inr rfl
      · exact Or.inl rfl

omit [DecidableEq S] in
theorem length_broadcast_le (sockets : List S) :
    (broadcast filter states message sockets).1.length ≤ sockets.length :=
  (broadcast_kept sockets).length_le

/-- A run that has been right stays so just if its last call is. -/
theorem right_append_iff {run' : HubRun S} {r : HubRecord S} (hright : run.Right filter)
    (hrecords : run'.records = run.records ++ [r]) (hsockets : run'.hub.sockets.length ≤ 200) :
    run'.Right filter ↔ r.Right filter := by
  constructor
  · intro h
    exact h.records r (by rw [hrecords]; exact List.mem_append_right _ (List.mem_singleton_self r))
  · refine fun h => ⟨fun other hother => ?_, hsockets⟩
    rw [hrecords] at hother
    obtain hother | hother := List.mem_append.mp hother
    · exact hright.records other hother
    · rw [List.mem_singleton.mp hother]
      exact h

/-- A call keeps a run right just if it passes the filters. -/
theorem right_step_iff (h : run.Sound) (hright : run.Right filter) (c : HubCall S × SocketStates S) :
    (HubRun.step filter run c).Right filter ↔ PassesFilter filter run c := by
  obtain ⟨call, states⟩ := c
  have hsockets := hright.sockets
  cases call with
  | add socket =>
    have hbound : (run.hub.add filter states socket).2.1.sockets.length ≤ 200 := by
      obtain ⟨-, heq⟩ | ⟨hroom, n, heq⟩ := add_cases filter states run.hub socket
      · rw [heq]
        exact hsockets
      · rw [heq]
        calc (broadcast filter states (.status n) (withSocket run.hub.sockets socket)).1.length
            ≤ (withSocket run.hub.sockets socket).length := length_broadcast_le _
          _ ≤ run.hub.sockets.length + 1 := length_withSocket_le _ _
          _ ≤ 200 := hroom
    refine iff_of_true ?_ nofun
    exact (right_append_iff hright rfl hbound).mpr (right_of_add h socket)
  | remove socket =>
    have hbound : (run.hub.remove filter states socket).1.sockets.length ≤ 200 :=
      (length_broadcast_le _).trans ((List.length_erase_le).trans hsockets)
    refine iff_of_true ?_ nofun
    exact (right_append_iff hright rfl hbound).mpr (right_of_remove socket)
  | push entry =>
    have hbound : (run.hub.push filter states entry).1.sockets.length ≤ 200 :=
      (length_broadcast_le _).trans hsockets
    exact (right_append_iff hright rfl hbound).trans (right_of_push_iff h entry)

end Records

/-- **Log isolation**: every call of a run sends what it should and no more than 200 sockets are held
    just if each falsy entry that is pushed is accepted by the filters of all sockets that it is
    sent to. -/
theorem right_everywhere_iff (filter : S → Value → Bool)
    (calls : List (HubCall S × SocketStates S)) :
    Machine.Everywhere (Machine.total (HubRun.step filter)) (HubRun.Right filter) HubRun.start calls ↔
      Machine.Along (Machine.total (HubRun.step filter)) (PassesFilter filter) HubRun.start calls := by
  refine Machine.everywhere_iff_along_of_invariant HubRun.Sound ?_ ?_ sound_start
    ⟨nofun, Nat.zero_le 200⟩
  · rintro run c run' h ⟨⟩
    exact h.step c
  · rintro run c run' h hright ⟨⟩
    exact right_step_iff h hright c

/-- What the text `null` on the channel is read as is sent to a socket whose filter rejects it. -/
theorem not_right_null :
    ¬Machine.Everywhere (Machine.total (HubRun.step fun _ => tenantFilter ["b1"]))
      (HubRun.Right fun _ => tenantFilter ["b1"]) (HubRun.start : HubRun ℕ)
      [(.add 0, ⟨fun _ => 0, fun _ => false⟩), (.push .null, ⟨fun _ => 0, fun _ => false⟩)] := by
  intro hright
  have hpush : HubRecord.Right (fun _ : ℕ => tenantFilter ["b1"])
      ⟨.push .null, [], true, [(0, .log .null)]⟩ :=
    (hright.at_end rfl).records _ (List.mem_cons_of_mem _ List.mem_cons_self)
  have hpasses : tenantFilter ["b1"] .null = true := hpush.passes 0 .null List.mem_cons_self
  exact absurd hpasses (by decide)

end BotHive.Logs
