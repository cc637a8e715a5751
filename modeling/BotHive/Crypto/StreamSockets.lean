import BotHive.Crypto.StreamWiring

/-!
# Sockets of the stream hub

Every symbol with listeners should have one socket or a timer that will open one, a symbol
without listeners should have neither, and no two sockets should deliver ticks of one symbol.
Two steps break this. When the constructor throws while an entry is created, the entry has no
listener yet, and so the reconnect is not scheduled. And a stale socket is given up without its
end: if it has not closed when the timer opens the next one, both deliver.

## Main definitions

- `SymbolStreamHub.Streams`: what should hold after each step
- `SymbolStreamHub.OpensAlone`: the condition on a step

## Main results

- `streams_iff_opensAlone`: the streams are as they should be everywhere in a run exactly when
  each step meets the condition
- `not_streams_failedConstructor`: a listener without socket and timer
-/

namespace BotHive.Crypto

namespace SymbolStreamHub

/-- A socket whose ticks reach listeners. -/
structure Delivers (s : SymbolStreamHub) (w : ℕ) : Prop where
  alive : (s.wires w).closed = false
  refs : (s.entries (s.wires w).entry).refs ≠ []

/-- The entry of a symbol has either a socket or a timer, and no other entry has one. -/
structure ConnectedBy (s : SymbolStreamHub) (key : String) (e : ℕ) : Prop where
  held : s.sockets key = some e
  either : (s.entries e).ws.isSome ↔ (s.entries e).reconnectTimer = none
  only : ∀ e', e' ≠ e → (s.entries e').symbol = key →
    (s.entries e').ws = none ∧ (s.entries e').reconnectTimer = none

/-- Nothing is left of a symbol. -/
structure Idle (s : SymbolStreamHub) (key : String) : Prop where
  dropped : s.sockets key = none
  inert : ∀ e, (s.entries e).symbol = key → (s.entries e).ws = none ∧
    (s.entries e).reconnectTimer = none ∧ (s.entries e).heartbeatTimer = false

structure Streams (s : SymbolStreamHub) : Prop where
  connected : ∀ key, s.subscribers key ≠ [] → ∃ e, s.ConnectedBy key e
  idle : ∀ key, s.subscribers key = [] → s.Idle key
  alone : ∀ w w', s.Delivers w → s.Delivers w' →
    (s.entries (s.wires w).entry).symbol = (s.entries (s.wires w').entry).symbol → w = w'
  /-- A tick reaches the subscribers; on a socket that has been given up with its entry it
      reaches nobody. -/
  delivered : ∀ d ∈ s.delivered, d.receivers = if d.current then d.subscribers else []

/-- A constructor does not throw for the first listener of a symbol, and a timer that opens a
    socket finds the sockets before it closed. -/
def OpensAlone [CaseMapping] (s : SymbolStreamHub) : HubAction → Prop
  | .subscribe symbol _ constructed => s.sockets (toUpperCase symbol) = none → constructed = true
  | .reconnect e constructed =>
    constructed = true → ∀ w, (s.wires w).entry = e → (s.wires w).closed = true
  | _ => True

/-- What a wired hub can miss. -/
structure Served (s : SymbolStreamHub) : Prop where
  connected : ∀ e, (s.entries e).refs ≠ [] → (s.entries e).ws = none →
    (s.entries e).reconnectTimer ≠ none
  alone : ∀ w w', (s.wires w).closed = false → (s.wires w').closed = false →
    (s.wires w).entry = (s.wires w').entry → (s.entries (s.wires w).entry).refs ≠ [] → w = w'

section Steps

variable {s : SymbolStreamHub} {e w : ℕ}

theorem Wired.connectedBy_iff (h : s.Wired) {key : String} (hheld : s.sockets key = some e) :
    s.ConnectedBy key e ↔ ((s.entries e).ws = none → (s.entries e).reconnectTimer ≠ none) := by
  constructor
  · intro hconnected hws htimer
    have hsome := hconnected.either.mpr htimer
    rw [hws] at hsome
    exact Bool.false_ne_true hsome
  · intro hone
    refine ⟨hheld, ⟨?_, ?_⟩, ?_⟩
    · intro hsome
      by_contra htimer
      rw [h.waits e htimer] at hsome
      exact Bool.false_ne_true hsome
    · intro htimer
      exact Option.isSome_iff_ne_none.mpr fun hws => hone hws htimer
    · intro e' hne hsymbol
      have hinert : (s.entries e').Inert := by
        apply h.dropped e'
        rw [hsymbol, hheld]
        exact fun heq => hne (Option.some.inj heq).symm
      exact ⟨hinert.ws, hinert.reconnectTimer⟩

theorem Wired.idle (h : s.Wired) {key : String} (hnone : s.subscribers key = []) :
    s.Idle key := by
  have hdropped : s.sockets key = none := by
    cases hheld : s.sockets key with
    | none => rfl
    | some e =>
      obtain ⟨-, -, hrefs, hne⟩ := h.held key e hheld
      exact absurd (hrefs.trans hnone) hne
  refine ⟨hdropped, ?_⟩
  intro e hsymbol
  have hinert : (s.entries e).Inert := by
    apply h.dropped e
    rw [hsymbol, hdropped]
    exact (Option.some_ne_none e).symm
  exact ⟨hinert.ws, hinert.reconnectTimer, hinert.heartbeatTimer⟩

/-- Two entries with listeners and one symbol are the same. -/
theorem Wired.entry_eq (h : s.Wired) {e' : ℕ} (hrefs : (s.entries e).refs ≠ [])
    (hrefs' : (s.entries e').refs ≠ []) (hsymbol : (s.entries e).symbol = (s.entries e').symbol) :
    e = e' := by
  have hheld := h.held_of_refs hrefs
  rw [hsymbol, h.held_of_refs hrefs'] at hheld
  exact (Option.some.inj hheld).symm

theorem Wired.streams_iff_served (h : s.Wired) : s.Streams ↔ s.Served := by
  constructor
  · intro hstreams
    constructor
    · intro e hrefs
      have hheld := h.held_of_refs hrefs
      obtain ⟨-, -, hsame, -⟩ := h.held _ e hheld
      obtain ⟨e', hconnected⟩ := hstreams.connected _ (hsame ▸ hrefs)
      obtain rfl : e = e' := Option.some.inj (hheld.symm.trans hconnected.held)
      exact (h.connectedBy_iff hheld).mp hconnected
    · intro w w' halive halive' hentry hrefs
      exact hstreams.alone w w' ⟨halive, hrefs⟩ ⟨halive', hentry ▸ hrefs⟩
        (congrArg (fun e => (s.entries e).symbol) hentry)
  · intro hserved
    refine ⟨?_, fun key => h.idle, ?_, h.delivered⟩
    · intro key hsome
      cases hheld : s.sockets key with
      | none => exact absurd (h.absent key hheld) hsome
      | some e =>
        obtain ⟨-, -, -, hne⟩ := h.held key e hheld
        exact ⟨e, (h.connectedBy_iff hheld).mpr (hserved.connected e hne)⟩
    · intro w w' hw hw' hsymbol
      exact hserved.alone w w' hw.alive hw'.alive (h.entry_eq hw.refs hw'.refs hsymbol) hw.refs

theorem refs_ne_nil_of_removeRef {refs : List ℕ} {onTick : ℕ} (h : removeRef refs onTick ≠ []) :
    refs ≠ [] := by
  rintro rfl
  exact h rfl

/-- An edit after which an entry has listeners only if it had some, and then a socket or a
    timer. -/
theorem Served.edit (hs : s.Served) {f : SymbolSocket → SymbolSocket}
    (hrefs : (f (s.entries e)).refs ≠ [] → (s.entries e).refs ≠ [])
    (hone : (f (s.entries e)).refs ≠ [] → (f (s.entries e)).ws = none →
      (f (s.entries e)).reconnectTimer ≠ none) : (s.modify e f).Served where
  connected :=
    forall_modify (q := fun _ entry => entry.refs ≠ [] → entry.ws = none →
      entry.reconnectTimer ≠ none) hone fun e' _ => hs.connected e'
  alone w w' halive halive' hentry hne := by
    refine hs.alone w w' halive halive' hentry ?_
    exact forall_modify (q := fun e' entry => entry.refs ≠ [] → (s.entries e').refs ≠ []) hrefs
      (fun _ _ => id) _ hne

theorem Served.addListener (hs : s.Served) (h : s.Wired) {key : String}
    (he : s.sockets key = some e) (onTick : ℕ) :
    ((s.note key (addRef (s.subscribers key) onTick)).modify e fun entry =>
      { entry with refs := addRef entry.refs onTick }).Served := by
  have hrefs : (s.entries e).refs ≠ [] := (h.held key e he).2.2.2
  have hedited : (s.modify e fun entry => { entry with refs := addRef entry.refs onTick }).Served :=
    hs.edit (fun _ => hrefs) fun _ => hs.connected e hrefs
  exact ⟨hedited.connected, hedited.alone⟩

theorem Served.removeListener (hs : s.Served) {key : String} {onTick : ℕ} :
    ((s.note key (removeRef (s.subscribers key) onTick)).modify e fun entry =>
      { entry with refs := removeRef entry.refs onTick }).Served := by
  have hedited : (s.modify e fun entry =>
      { entry with refs := removeRef entry.refs onTick }).Served :=
    hs.edit refs_ne_nil_of_removeRef fun hrefs => hs.connected e (refs_ne_nil_of_removeRef hrefs)
  exact ⟨hedited.connected, hedited.alone⟩

theorem Served.touch (hs : s.Served) (e : ℕ) (attempts : ℕ) (now : ℤ) :
    (s.modify e fun entry =>
      { entry with reconnectAttempts := attempts, lastMessageAt := now }).Served :=
  hs.edit id (hs.connected e)

theorem Served.handleMessage [CaseMapping] (hs : s.Served) (number : Value → Option ℚ) (e : ℕ)
    (frame : Option Value) : (s.handleMessage number e frame).Served := by
  rw [SymbolStreamHub.handleMessage]
  cases parseTick number (s.entries e).symbol s.now frame with
  | none => exact hs
  | some tick => exact ⟨hs.connected, hs.alone⟩

/-- A socket of the same entry, which delivers only if the one before it did. -/
theorem Served.setWire (hs : s.Served) {wire : Wire} (hentry : wire.entry = (s.wires w).entry)
    (halive : wire.closed = false → (s.wires w).closed = false) : (s.setWire w wire).Served where
  connected := hs.connected
  alone w₁ w₂ halive₁ halive₂ hsame hne := by
    have hentries : ∀ w', ((s.setWire w wire).wires w').entry = (s.wires w').entry :=
      forall_update (q := fun w' (wire' : Wire) => wire'.entry = (s.wires w').entry) hentry fun _ _ => rfl
    have hopen : ∀ w', ((s.setWire w wire).wires w').closed = false →
        (s.wires w').closed = false :=
      forall_update (q := fun w' (wire' : Wire) => wire'.closed = false →
        (s.wires w').closed = false) halive fun _ _ => id
    rw [hentries, hentries] at hsame
    rw [hentries] at hne
    exact hs.alone w₁ w₂ (hopen w₁ halive₁) (hopen w₂ halive₂) hsame hne

/-- The end of a socket leaves at most as many that deliver. -/
theorem Served.closeWire (hs : s.Served) (w : ℕ) :
    (s.setWire w { s.wires w with closed := true }).Served := by
  apply hs.setWire
  · rfl
  · rintro ⟨⟩

theorem Served.quiet (hs : s.Served) (w : ℕ) :
    (s.setWire w { s.wires w with closeListener := false }).Served := by
  apply hs.setWire
  · rfl
  · exact id

/-- An entry without listeners may lose its socket. -/
theorem Served.closeSocket (hs : s.Served) {key : String} (hrefs : (s.entries e).refs = []) :
    (s.closeSocket key e).Served := by
  have hstopped : (s.modify e fun entry =>
      { entry with reconnectTimer := none, heartbeatTimer := false }).Served :=
    hs.edit id fun hne => absurd hrefs hne
  rw [SymbolStreamHub.closeSocket]
  cases (s.entries e).ws with
  | none => exact ⟨hstopped.connected, hstopped.alone⟩
  | some w =>
    have hdetached := (hstopped.quiet w).edit (e := e) (f := fun entry => { entry with ws := none })
      id fun hne => absurd (by rw [SymbolStreamHub.setWire, modify_entries_self]; exact hrefs) hne
    exact ⟨hdetached.connected, hdetached.alone⟩

/-- An entry that has lost its socket gets a timer. -/
theorem Served.scheduleReconnect (hs : s.Served) (e : ℕ) :
    ((s.modify e fun entry => { entry with ws := none }).scheduleReconnect e).Served := by
  rw [SymbolStreamHub.scheduleReconnect, modify_entries_self]
  split_ifs with hidle
  · refine hs.edit id fun hne _ => ?_
    exact Option.isSome_iff_ne_none.mp (hidle.resolve_left hne)
  · rw [modify_modify]
    exact hs.edit id fun _ _ => Option.some_ne_none _

/-- A socket is opened for an entry whose earlier sockets have closed. -/
theorem served_open (hconnected : ∀ e', e' ≠ e → (s.entries e').refs ≠ [] →
      (s.entries e').ws = none → (s.entries e').reconnectTimer ≠ none)
    (halone : ∀ w w', (s.wires w).closed = false → (s.wires w').closed = false →
      (s.wires w).entry = (s.wires w').entry → (s.entries (s.wires w).entry).refs ≠ [] → w = w')
    (hclosed : ∀ w, (s.wires w).entry = e → (s.wires w).closed = true) :
    (s.open e true).Served := by
  let connect (entry : SymbolSocket) : SymbolSocket :=
    { entry with ws := some s.opened, lastMessageAt := s.now }
  let wires := Function.update s.wires s.opened ⟨e, true, false⟩
  -- another socket that delivers is one of another entry
  have hother : ∀ w, w ≠ s.opened → (wires w).closed = false →
      (wires w).entry ≠ e ∧ wires w = s.wires w := by
    intro w hne halive
    have hsame : wires w = s.wires w := Function.update_of_ne hne _ _
    refine ⟨fun heq => ?_, hsame⟩
    rw [hsame] at halive heq
    exact Bool.false_ne_true (halive.symm.trans (hclosed w heq))
  have hnew : wires s.opened = ⟨e, true, false⟩ := Function.update_self _ _ _
  constructor
  · show ∀ e', ((s.modify e connect).entries e').refs ≠ [] →
      ((s.modify e connect).entries e').ws = none →
      ((s.modify e connect).entries e').reconnectTimer ≠ none
    refine forall_modify (q := fun _ entry => entry.refs ≠ [] → entry.ws = none →
      entry.reconnectTimer ≠ none) (fun _ hws => ?_) hconnected
    exact absurd hws (Option.some_ne_none _)
  · show ∀ w w', (wires w).closed = false → (wires w').closed = false →
      (wires w).entry = (wires w').entry → ((s.modify e connect).entries (wires w).entry).refs ≠ [] →
      w = w'
    intro w w' halive halive' hentry hne
    by_cases hw : w = s.opened
    · by_cases hw' : w' = s.opened
      · rw [hw, hw']
      · rw [hw, hnew] at hentry
        exact absurd hentry.symm (hother w' hw' halive').1
    · obtain ⟨hentry_ne, hsame⟩ := hother w hw halive
      by_cases hw' : w' = s.opened
      · rw [hw', hnew] at hentry
        exact absurd hentry hentry_ne
      · rw [modify_entries_of_ne _ _ hentry_ne] at hne
        obtain ⟨-, hsame'⟩ := hother w' hw' halive'
        rw [hsame] at halive hentry hne
        rw [hsame'] at halive' hentry
        exact halone w w' halive halive' hentry hne

/-- The first listener of a symbol is served exactly when the constructor succeeds. -/
theorem Served.create_iff (hs : s.Served) (h : s.Wired) {key : String} (onTick : ℕ)
    (constructed : Bool) :
    ({ (s.note key (addRef (s.subscribers key) onTick)).createSocket key constructed with
      sockets := Function.update s.sockets key (some s.created) }.modify s.created fun entry =>
        { entry with refs := addRef entry.refs onTick }).Served ↔ constructed = true := by
  have hlt : ∀ w, (s.wires w).closed = false → (s.wires w).entry ≠ s.created :=
    fun w halive => (h.entry_lt w halive).ne
  cases constructed with
  | true =>
    refine iff_of_true ?_ rfl
    let entered : SymbolStreamHub := { s with
      entries := Function.update s.entries s.created
        { SymbolSocket.new key with refs := addRef [] onTick, heartbeatTimer := true } }
    have hentered : ∀ e', e' ≠ s.created → entered.entries e' = s.entries e' :=
      fun e' hne => Function.update_of_ne hne _ _
    have hopen : (entered.open s.created true).Served := by
      apply served_open
      · intro e' hne
        rw [hentered e' hne]
        exact hs.connected e'
      · intro w w' halive halive' hentry hne
        rw [hentered _ (hlt w halive)] at hne
        exact hs.alone w w' halive halive' hentry hne
      · intro w hentry
        by_contra halive
        exact hlt w (Bool.eq_false_of_not_eq_true halive) hentry
    simp only [entered, createSocket, «open», if_true, SymbolStreamHub.setWire, modify, note,
      Function.update_self, Function.update_idem] at hopen ⊢
    exact ⟨hopen.connected, hopen.alone⟩
  | false =>
    refine iff_of_false ?_ Bool.false_ne_true
    intro hserved
    have htimer := hserved.connected s.created
    simp only [createSocket, «open», Bool.false_eq_true, if_false, SymbolStreamHub.scheduleReconnect,
      modify, note, Function.update_self, SymbolSocket.new, if_true, true_or] at htimer
    exact htimer (addRef_ne_nil _ _) trivial rfl

/-- A reconnect that does not throw needs the sockets before it to have closed. -/
theorem Served.open_iff (hs : s.Served) (h : s.Wired)
    (htimer : (s.entries e).reconnectTimer ≠ none) (constructed : Bool) :
    ((s.modify e fun entry => { entry with reconnectTimer := none }).open e constructed).Served ↔
      (constructed = true → ∀ w, (s.wires w).entry = e → (s.wires w).closed = true) := by
  have hrefs : (s.entries e).refs ≠ [] := h.refs_of_timer htimer
  let ready : SymbolStreamHub := s.modify e fun entry => { entry with reconnectTimer := none }
  have hsame : ∀ e', (ready.entries e').refs = (s.entries e').refs :=
    forall_modify (q := fun e' entry => entry.refs = (s.entries e').refs) rfl fun _ _ => rfl
  cases constructed with
  | true =>
    constructor
    · intro hserved _ w hentry
      by_contra hopen
      have halive : (s.wires w).closed = false := Bool.eq_false_of_not_eq_true hopen
      have hne : w ≠ s.opened := (h.lt_opened halive).ne
      let wires := Function.update s.wires s.opened ⟨e, true, false⟩
      have hnew : wires s.opened = ⟨e, true, false⟩ := Function.update_self _ _ _
      have hold : wires w = s.wires w := Function.update_of_ne hne _ _
      -- the earlier socket and the new one would both deliver
      refine hne (hserved.alone w s.opened ?_ ?_ ?_ ?_)
      · show (wires w).closed = false
        rw [hold, halive]
      · show (wires s.opened).closed = false
        rw [hnew]
      · show (wires w).entry = (wires s.opened).entry
        rw [hold, hnew, hentry]
      · show ((ready.modify e fun entry =>
          { entry with ws := some s.opened, lastMessageAt := s.now }).entries
            (wires w).entry).refs ≠ []
        rw [hold, hentry, modify_entries_self]
        exact (hsame e).symm ▸ hrefs
    · intro hclosed
      apply served_open
      · intro e' hne
        rw [modify_entries_of_ne _ _ hne]
        exact hs.connected e'
      · intro w w' halive halive' hentry hne
        exact hs.alone w w' halive halive' hentry (hsame _ ▸ hne)
      · exact hclosed rfl
  | false =>
    refine iff_of_true ?_ fun hfalse => (Bool.false_ne_true hfalse).elim
    show (ready.scheduleReconnect e).Served
    rw [SymbolStreamHub.scheduleReconnect, if_neg (by simp [ready, hrefs])]
    rw [modify_modify]
    exact hs.edit id fun _ _ => Option.some_ne_none _

end Steps

section Run

variable [CaseMapping] (number : Value → Option ℚ)

theorem Served.subscribe_iff {s : SymbolStreamHub} (hs : s.Served) (h : s.Wired) (symbol : String)
    (onTick : ℕ) (constructed : Bool) : (s.subscribe symbol onTick constructed).Served ↔
      (s.sockets (toUpperCase symbol) = none → constructed = true) := by
  rw [SymbolStreamHub.subscribe]
  cases he : s.sockets (toUpperCase symbol) with
  | some e =>
    refine iff_of_true (hs.addListener h he onTick) ?_
    rintro ⟨⟩
  | none =>
    simp only [createSocket_sockets]
    exact (hs.create_iff h onTick constructed).trans ⟨fun h _ => h, fun h => h trivial⟩

omit [CaseMapping] in
theorem Served.unsubscribe {s : SymbolStreamHub} (hs : s.Served) (key : String) (onTick : ℕ) :
    (s.unsubscribe key onTick).Served := by
  rw [SymbolStreamHub.unsubscribe]
  cases s.sockets key with
  | none => exact ⟨hs.connected, hs.alone⟩
  | some e =>
    simp only [modify_entries_self]
    split_ifs with hlast
    · apply hs.removeListener.closeSocket
      rw [modify_entries_self]
      exact hlast
    · exact hs.removeListener

omit [CaseMapping] in
theorem Served.heartbeat {s : SymbolStreamHub} (hs : s.Served) (e : ℕ) :
    (s.heartbeat e).Served := by
  rw [SymbolStreamHub.heartbeat]
  cases (s.entries e).ws with
  | none => exact hs
  | some w =>
    simp only
    split_ifs
    · exact (hs.quiet w).scheduleReconnect e
    · exact hs

omit [CaseMapping] in
theorem Served.close {s : SymbolStreamHub} {w : ℕ} (hs : s.Served) (h : s.Wired)
    (halive : (s.wires w).closed = false) :
    (if (s.wires w).closeListener then
      (s.setWire w { s.wires w with closed := true }).onClose w
    else s.setWire w { s.wires w with closed := true }).Served := by
  split_ifs with hlistens
  · rw [h.onClose_eq hlistens halive]
    exact (hs.closeWire w).scheduleReconnect _
  · exact hs.closeWire w

/-- What a step does to a hub that misses nothing. -/
theorem Served.step_iff (s : SymbolStreamHub) (a : HubAction) (s' : SymbolStreamHub) (h : s.Wired)
    (hs : s.Served) (hstep : s.step number a = some s') : s'.Served ↔ s.OpensAlone a := by
  cases a with
  | wait ms =>
    obtain rfl := Option.some.inj hstep
    exact iff_of_true ⟨hs.connected, hs.alone⟩ trivial
  | subscribe symbol onTick constructed =>
    obtain rfl := Option.some.inj hstep
    exact hs.subscribe_iff h symbol onTick constructed
  | unsubscribe key onTick =>
    obtain rfl := Option.some.inj hstep
    exact iff_of_true (hs.unsubscribe key onTick) trivial
  | opened w =>
    obtain ⟨-, ⟨⟩⟩ := Option.ite_none_left_eq_some.mp hstep
    exact iff_of_true (hs.touch _ 0 s.now) trivial
  | message w frame =>
    obtain ⟨-, ⟨⟩⟩ := Option.ite_none_left_eq_some.mp hstep
    exact iff_of_true ((hs.touch _ _ s.now).handleMessage number _ frame) trivial
  | error w =>
    obtain ⟨-, ⟨⟩⟩ := Option.ite_none_left_eq_some.mp hstep
    exact iff_of_true hs trivial
  | close w =>
    obtain ⟨halive, ⟨⟩⟩ := Option.ite_none_left_eq_some.mp hstep
    exact iff_of_true (hs.close h (Bool.eq_false_of_not_eq_true halive)) trivial
  | reconnect e constructed =>
    simp only [SymbolStreamHub.step] at hstep
    cases htimer : (s.entries e).reconnectTimer with
    | none =>
      rw [htimer] at hstep
      cases hstep
    | some due =>
      rw [htimer] at hstep
      obtain ⟨-, ⟨⟩⟩ := Option.ite_none_right_eq_some.mp hstep
      exact hs.open_iff h (htimer ▸ Option.some_ne_none due) constructed
  | heartbeat e =>
    obtain ⟨-, ⟨⟩⟩ := Option.ite_none_right_eq_some.mp hstep
    exact iff_of_true (hs.heartbeat e) trivial

omit [CaseMapping] in
theorem Served.start : start.Served where
  connected _ h := (h rfl).elim
  alone _ _ h := (Bool.false_ne_true h.symm).elim

/-- The streams are as they should be after every step, whatever listeners, sockets and timers
    do, exactly when every first listener gets its socket and every reconnect finds the sockets
    before it closed. -/
theorem streams_iff_opensAlone (as : List HubAction) :
    Machine.Everywhere (step number) Streams start as ↔
      Machine.Along (step number) OpensAlone start as := by
  apply Machine.everywhere_iff_along_of_invariant Wired (Wired.step number)
  · intro s a s' h hstreams hstep
    rw [(Wired.step number s a s' h hstep).streams_iff_served]
    exact Served.step_iff number s a s' h (h.streams_iff_served.mp hstreams) hstep
  · exact Wired.start
  · exact Wired.start.streams_iff_served.mpr Served.start

end Run

/-- The constructor throws for the first listener of a symbol, which stays without socket and
    timer. -/
theorem not_streams_failedConstructor :
    ¬ Machine.Everywhere (step fun _ => none) Streams start [.subscribe "BTCUSDT" 0 false] := by
  intro heverywhere
  have hstreams : (start.subscribe "BTCUSDT" 0 false).Streams := heverywhere.2 _ rfl
  have hsome : (start.subscribe "BTCUSDT" 0 false).subscribers (toUpperCase "BTCUSDT") ≠ [] := by
    simp only [subscribe, modify, note, start, Function.update_self, createSocket, «open»]
    exact addRef_ne_nil [] 0
  obtain ⟨e, hheld, heither, -⟩ := hstreams.connected _ hsome
  have he : (start.subscribe "BTCUSDT" 0 false).sockets (toUpperCase "BTCUSDT") = some 0 := by
    simp only [subscribe, modify, note, start, createSocket_sockets, Function.update_self]
  obtain rfl : 0 = e := Option.some.inj (he.symm.trans hheld)
  have htimer : ((start.subscribe "BTCUSDT" 0 false).entries 0).reconnectTimer = none := rfl
  have hws : ((start.subscribe "BTCUSDT" 0 false).entries 0).ws = none := rfl
  rw [hws, htimer] at heither
  exact Bool.false_ne_true (heither.mpr rfl)

end SymbolStreamHub

end BotHive.Crypto
