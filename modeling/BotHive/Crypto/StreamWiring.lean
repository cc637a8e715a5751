import BotHive.Library.Machine
import BotHive.Library.Tasks
import BotHive.Crypto.StreamHub

/-!
# Wiring of the stream hub

What holds of the entries and the sockets of the hub after every step, whatever fails: the hub
has one entry for each symbol with listeners, an entry that it has dropped is inert, and a
socket with its close handler is the current one of its entry.

## Main definitions

- `SymbolStreamHub.Wired`: the invariant

## Main results

- `Wired.edit`, `Wired.setRefs`, `Wired.giveUp`, `Wired.openSocket`, `Wired.enter`, `Wired.drop`:
  what the steps are made of keeps it
- `Wired.step`: each step keeps it
-/

namespace BotHive.Crypto

/-- An entry that the hub has dropped. -/
structure SymbolSocket.Inert (entry : SymbolSocket) : Prop where
  ws : entry.ws = none
  refs : entry.refs = []
  reconnectTimer : entry.reconnectTimer = none
  heartbeatTimer : entry.heartbeatTimer = false

namespace SymbolStreamHub

/-- What holds of the hub after every step. -/
structure Wired (s : SymbolStreamHub) : Prop where
  held : ∀ key e, s.sockets key = some e → e < s.created ∧ (s.entries e).symbol = key ∧
    (s.entries e).refs = s.subscribers key ∧ (s.entries e).refs ≠ []
  absent : ∀ key, s.sockets key = none → s.subscribers key = []
  dropped : ∀ e, s.sockets (s.entries e).symbol ≠ some e → (s.entries e).Inert
  waits : ∀ e, (s.entries e).reconnectTimer ≠ none → (s.entries e).ws = none
  ws : ∀ e w, (s.entries e).ws = some w → s.wires w = ⟨e, true, false⟩
  listens : ∀ w, (s.wires w).closeListener = true → (s.wires w).closed = false →
    (s.entries (s.wires w).entry).ws = some w
  unopened : ∀ w, s.opened ≤ w → (s.wires w).closed = true
  entry_lt : ∀ w, (s.wires w).closed = false → (s.wires w).entry < s.created
  delivered : ∀ d ∈ s.delivered, d.receivers = if d.current then d.subscribers else []

section Steps

variable {s s' : SymbolStreamHub} {key : String} {e w : ℕ} {f : SymbolSocket → SymbolSocket}

@[simp] theorem modify_entries_self (s : SymbolStreamHub) (e : ℕ)
    (f : SymbolSocket → SymbolSocket) : (s.modify e f).entries e = f (s.entries e) :=
  Function.update_self _ _ _

theorem modify_entries_of_ne (s : SymbolStreamHub) (f : SymbolSocket → SymbolSocket) {e' : ℕ}
    (hne : e' ≠ e) : (s.modify e f).entries e' = s.entries e' :=
  Function.update_of_ne hne _ _

theorem modify_modify (s : SymbolStreamHub) (e : ℕ) (f g : SymbolSocket → SymbolSocket) :
    (s.modify e f).modify e g = s.modify e fun entry => g (f entry) := by
  simp only [modify, Function.update_self, Function.update_idem]

/-- What holds of the edited entry and of all others holds of every entry. -/
theorem forall_modify {q : ℕ → SymbolSocket → Prop} (he : q e (f (s.entries e)))
    (hother : ∀ e', e' ≠ e → q e' (s.entries e')) : ∀ e', q e' ((s.modify e f).entries e') :=
  forall_update he hother

theorem addRef_ne_nil (refs : List ℕ) (onTick : ℕ) : addRef refs onTick ≠ [] := by
  rw [addRef]
  split_ifs with h
  · exact List.ne_nil_of_mem h
  · exact List.append_ne_nil_of_right_ne_nil _ (List.cons_ne_nil _ _)

/-- An entry with listeners is the one of its symbol. -/
theorem Wired.held_of_refs (h : s.Wired) (hrefs : (s.entries e).refs ≠ []) :
    s.sockets (s.entries e).symbol = some e := by
  by_contra hne
  exact hrefs (h.dropped e hne).refs

/-- So is one with a socket. -/
theorem Wired.held_of_ws (h : s.Wired) (hcurrent : (s.entries e).ws = some w) :
    s.sockets (s.entries e).symbol = some e := by
  by_contra hne
  exact Option.some_ne_none w (hcurrent.symm.trans (h.dropped e hne).ws)

/-- A socket that has not closed has been opened. -/
theorem Wired.lt_opened (h : s.Wired) (halive : (s.wires w).closed = false) : w < s.opened := by
  by_contra hge
  rw [h.unopened w (not_lt.mp hge)] at halive
  exact Bool.false_ne_true halive.symm

/-- An edit that leaves the symbol and the listeners of an entry. -/
theorem Wired.held_modify (h : s.Wired) (e : ℕ) (f : SymbolSocket → SymbolSocket)
    (hsymbol : (f (s.entries e)).symbol = (s.entries e).symbol)
    (hrefs : (f (s.entries e)).refs = (s.entries e).refs) (key : String) (e' : ℕ)
    (he' : s.sockets key = some e') : e' < s.created ∧ ((s.modify e f).entries e').symbol = key ∧
      ((s.modify e f).entries e').refs = s.subscribers key ∧
      ((s.modify e f).entries e').refs ≠ [] := by
  have hsymbols : ∀ e', ((s.modify e f).entries e').symbol = (s.entries e').symbol :=
    forall_modify (q := fun e' entry => entry.symbol = (s.entries e').symbol) hsymbol
      fun _ _ => rfl
  have hlisteners : ∀ e', ((s.modify e f).entries e').refs = (s.entries e').refs :=
    forall_modify (q := fun e' entry => entry.refs = (s.entries e').refs) hrefs fun _ _ => rfl
  rw [hsymbols, hlisteners]
  exact h.held key e' he'

/-- An edit of the entry of a symbol does not touch the entries that the hub has dropped. -/
theorem Wired.dropped_modify (h : s.Wired) (e : ℕ) (f : SymbolSocket → SymbolSocket)
    (hsymbol : (f (s.entries e)).symbol = (s.entries e).symbol)
    (hheld : s.sockets (s.entries e).symbol = some e) :
    ∀ e', s.sockets ((s.modify e f).entries e').symbol ≠ some e' →
      ((s.modify e f).entries e').Inert :=
  forall_modify (q := fun e' entry => s.sockets entry.symbol ≠ some e' → entry.Inert)
    (fun hdropped => absurd (hsymbol ▸ hheld) hdropped) fun e' _ => h.dropped e'

/-- An edit that leaves the symbol, the listeners and the socket of an entry. -/
theorem Wired.edit (h : s.Wired) (hsymbol : (f (s.entries e)).symbol = (s.entries e).symbol)
    (hrefs : (f (s.entries e)).refs = (s.entries e).refs)
    (hws : (f (s.entries e)).ws = (s.entries e).ws)
    (hinert : (s.entries e).Inert → (f (s.entries e)).Inert)
    (hwaits : (f (s.entries e)).reconnectTimer ≠ none → (f (s.entries e)).ws = none) :
    (s.modify e f).Wired := by
  have hsockets : ∀ e', ((s.modify e f).entries e').ws = (s.entries e').ws :=
    forall_modify (q := fun e' entry => entry.ws = (s.entries e').ws) hws fun _ _ => rfl
  constructor
  case held => exact h.held_modify e f hsymbol hrefs
  case absent => exact h.absent
  case dropped =>
    refine forall_modify (q := fun e' entry => s.sockets entry.symbol ≠ some e' → entry.Inert)
      (fun hdropped => hinert (h.dropped e (hsymbol ▸ hdropped))) fun e' _ => h.dropped e'
  case waits =>
    exact forall_modify (q := fun _ entry => entry.reconnectTimer ≠ none → entry.ws = none) hwaits
      fun e' _ => h.waits e'
  case ws =>
    intro e' w hw
    rw [hsockets] at hw
    exact h.ws e' w hw
  case listens =>
    intro w hlistens halive
    rw [hsockets]
    exact h.listens w hlistens halive
  case unopened => exact h.unopened
  case entry_lt => exact h.entry_lt
  case delivered => exact h.delivered

/-- Times and attempts do not matter. -/
theorem Wired.touch (h : s.Wired) (e : ℕ) (attempts : ℕ) (now : ℤ) :
    (s.modify e fun entry =>
      { entry with reconnectAttempts := attempts, lastMessageAt := now }).Wired :=
  h.edit rfl rfl rfl (fun hinert => { hinert with }) (h.waits e)

/-- The timer is over when it tries to open a socket. -/
theorem Wired.clearTimer (h : s.Wired) (e : ℕ) :
    (s.modify e fun entry => { entry with reconnectTimer := none }).Wired :=
  h.edit rfl rfl rfl (fun hinert => { hinert with reconnectTimer := rfl }) fun htimer =>
    absurd rfl htimer

theorem Wired.scheduleReconnect (h : s.Wired) (hws : (s.entries e).ws = none) :
    (s.scheduleReconnect e).Wired := by
  rw [SymbolStreamHub.scheduleReconnect]
  split_ifs with hidle
  · exact h
  · refine h.edit rfl rfl rfl (fun hinert => ?_) fun _ => hws
    exact absurd (Or.inl hinert.refs) hidle

/-- The entry of a symbol gets other listeners, which are those that the callers know. -/
theorem Wired.setRefs (h : s.Wired) (he : s.sockets key = some e) {refs : List ℕ}
    (hrefs : refs ≠ []) :
    ((s.note key refs).modify e fun entry => { entry with refs := refs }).Wired := by
  obtain ⟨hlt, hsymbol, -, -⟩ := h.held key e he
  have hheld : s.sockets (s.entries e).symbol = some e := hsymbol.symm ▸ he
  constructor
  case held =>
    intro k e' hk
    show e' < s.created ∧ _ ∧ _ = Function.update s.subscribers key refs k ∧ _
    by_cases hkey : k = key
    · subst hkey
      obtain rfl : e = e' := Option.some.inj (he.symm.trans hk)
      rw [modify_entries_self, Function.update_self]
      exact ⟨hlt, hsymbol, rfl, hrefs⟩
    · have hne : e' ≠ e := by
        rintro rfl
        exact hkey ((h.held k e' hk).2.1.symm.trans hsymbol)
      rw [modify_entries_of_ne _ _ hne, Function.update_of_ne hkey]
      exact h.held k e' hk
  case absent =>
    intro k hk
    have hkey : k ≠ key := by
      rintro rfl
      exact Option.some_ne_none e (he.symm.trans hk)
    exact (Function.update_of_ne hkey _ _).trans (h.absent k hk)
  case dropped => exact h.dropped_modify e (fun entry => { entry with refs := refs }) rfl hheld
  case waits =>
    exact forall_modify (q := fun _ entry => entry.reconnectTimer ≠ none → entry.ws = none)
      (h.waits e) fun e' _ => h.waits e'
  case ws =>
    exact forall_modify (q := fun e' entry => ∀ w, entry.ws = some w → s.wires w = ⟨e', true, false⟩)
      (h.ws e) fun e' _ => h.ws e'
  case listens =>
    intro w hlistens halive
    refine forall_modify (q := fun e' entry => e' = (s.wires w).entry → entry.ws = some w)
      ?_ ?_ _ rfl
    · rintro rfl
      exact h.listens w hlistens halive
    · rintro e' - rfl
      exact h.listens w hlistens halive
  case unopened => exact h.unopened
  case entry_lt => exact h.entry_lt
  case delivered => exact h.delivered

/-- One more listener for an entry. -/
theorem Wired.addListener (h : s.Wired) (he : s.sockets key = some e) (onTick : ℕ) :
    ((s.note key (addRef (s.subscribers key) onTick)).modify e fun entry =>
      { entry with refs := addRef entry.refs onTick }).Wired := by
  rw [← (h.held key e he).2.2.1]
  exact h.setRefs he (addRef_ne_nil _ _)

/-- A listener that is not the last one leaves. -/
theorem Wired.removeListener (h : s.Wired) (he : s.sockets key = some e) {onTick : ℕ}
    (hrefs : removeRef (s.entries e).refs onTick ≠ []) :
    ((s.note key (removeRef (s.subscribers key) onTick)).modify e fun entry =>
      { entry with refs := removeRef entry.refs onTick }).Wired := by
  rw [← (h.held key e he).2.2.1]
  exact h.setRefs he hrefs

/-- The current socket of an entry is given up: it closes, or loses its close handler. -/
theorem Wired.giveUp (h : s.Wired) (hcurrent : (s.entries e).ws = some w) {wire : Wire}
    (hentry : wire.entry = e) (hover : wire.closeListener = true → wire.closed = true) :
    ((s.setWire w wire).modify e fun entry => { entry with ws := none }).Wired := by
  have hwire : s.wires w = ⟨e, true, false⟩ := h.ws e w hcurrent
  have halive : (s.wires w).closed = false := hwire ▸ rfl
  have hlt : e < s.created := by
    have hlt := h.entry_lt w halive
    rwa [hwire] at hlt
  -- no other entry has this socket
  have hother : ∀ e', e' ≠ e → (s.entries e').ws ≠ some w := by
    intro e' hne hws
    have hwire' := h.ws e' w hws
    rw [hwire] at hwire'
    exact hne (congrArg Wire.entry hwire').symm
  constructor
  case held => exact h.held_modify e (fun entry => { entry with ws := none }) rfl rfl
  case absent => exact h.absent
  case dropped =>
    exact h.dropped_modify e (fun entry => { entry with ws := none }) rfl (h.held_of_ws hcurrent)
  case waits =>
    exact forall_modify (q := fun _ entry => entry.reconnectTimer ≠ none → entry.ws = none)
      (fun _ => rfl) fun e' _ => h.waits e'
  case ws =>
    refine forall_modify (q := fun e' entry => ∀ w', entry.ws = some w' →
      Function.update s.wires w wire w' = ⟨e', true, false⟩) (fun w' hws => ?_) ?_
    · exact absurd hws.symm (Option.some_ne_none w')
    · intro e' hne w' hws
      have hne' : w' ≠ w := by
        rintro rfl
        exact hother e' hne hws
      rw [Function.update_of_ne hne']
      exact h.ws e' w' hws
  case listens =>
    refine forall_update (q := fun w' (wire' : Wire) => wire'.closeListener = true → wire'.closed = false →
      ((s.modify e fun entry => { entry with ws := none }).entries wire'.entry).ws =
        some w') (fun hlistens hopen => ?_) fun w' hne hlistens hopen => ?_
    · exact absurd (hover hlistens) (Bool.eq_false_iff.mp hopen)
    · have hws := h.listens w' hlistens hopen
      have hentry' : (s.wires w').entry ≠ e := by
        intro heq
        rw [heq, hcurrent] at hws
        exact hne (Option.some.inj hws).symm
      rw [modify_entries_of_ne _ _ hentry']
      exact hws
  case unopened =>
    refine forall_update (q := fun w' (wire' : Wire) => s.opened ≤ w' → wire'.closed = true)
      (fun hle => ?_) fun w' _ => h.unopened w'
    exact absurd (h.lt_opened halive) (not_lt.mpr hle)
  case entry_lt =>
    exact forall_update (q := fun _ (wire' : Wire) => wire'.closed = false → wire'.entry < s.created)
      (fun _ => hentry ▸ hlt) fun w' _ => h.entry_lt w'
  case delivered => exact h.delivered

/-- A socket is given up, and the entry goes on without one. -/
theorem Wired.detach (h : s.Wired) (hcurrent : (s.entries e).ws = some w) :
    (s.detach e w).Wired := by
  apply h.giveUp hcurrent
  · rw [h.ws e w hcurrent]
  · rintro ⟨⟩

/-- The current socket comes to its end. -/
theorem Wired.closeCurrent (h : s.Wired) (hcurrent : (s.entries e).ws = some w) :
    ((s.setWire w { s.wires w with closed := true }).modify e fun entry =>
      { entry with ws := none }).Wired := by
  apply h.giveUp hcurrent
  · rw [h.ws e w hcurrent]
  · exact fun _ => rfl

/-- A socket without its close handler comes to its end. -/
theorem Wired.closeQuietly (h : s.Wired) (hquiet : (s.wires w).closeListener = false) :
    (s.setWire w { s.wires w with closed := true }).Wired := by
  constructor
  case held => exact h.held
  case absent => exact h.absent
  case dropped => exact h.dropped
  case waits => exact h.waits
  case ws =>
    intro e w' hws
    have hne : w' ≠ w := by
      rintro rfl
      rw [h.ws e w' hws] at hquiet
      exact Bool.false_ne_true hquiet.symm
    exact (Function.update_of_ne hne _ _).trans (h.ws e w' hws)
  case listens =>
    refine forall_update (q := fun w' (wire : Wire) => wire.closeListener = true → wire.closed = false →
      (s.entries wire.entry).ws = some w') ?_ fun w' _ => h.listens w'
    rintro - ⟨⟩
  case unopened =>
    exact forall_update (q := fun w' (wire : Wire) => s.opened ≤ w' → wire.closed = true) (fun _ => rfl)
      fun w' _ => h.unopened w'
  case entry_lt =>
    refine forall_update (q := fun _ (wire : Wire) => wire.closed = false → wire.entry < s.created) ?_
      fun w' _ => h.entry_lt w'
    rintro ⟨⟩
  case delivered => exact h.delivered

/-- A socket is opened for an entry that has none. -/
theorem Wired.openSocket (h : s.Wired) (hrefs : (s.entries e).refs ≠ [])
    (hws : (s.entries e).ws = none) (htimer : (s.entries e).reconnectTimer = none) :
    (s.open e true).Wired := by
  have hheld := h.held_of_refs hrefs
  let connect (entry : SymbolSocket) : SymbolSocket :=
    { entry with ws := some s.opened, lastMessageAt := s.now }
  show ({ s.setWire s.opened ⟨e, true, false⟩ with opened := s.opened + 1 }.modify e
    connect).Wired
  constructor
  case held => exact h.held_modify e connect rfl rfl
  case absent => exact h.absent
  case dropped => exact h.dropped_modify e connect rfl hheld
  case waits =>
    exact forall_modify (q := fun _ entry => entry.reconnectTimer ≠ none → entry.ws = none)
      (fun hsome => absurd htimer hsome) fun e' _ => h.waits e'
  case ws =>
    refine forall_modify (q := fun e' entry => ∀ w, entry.ws = some w →
      Function.update s.wires s.opened ⟨e, true, false⟩ w = ⟨e', true, false⟩) ?_ ?_
    · rintro w ⟨⟩
      exact Function.update_self _ _ _
    · intro e' _ w hw
      have hwire := h.ws e' w hw
      have hne : w ≠ s.opened := (h.lt_opened (hwire ▸ rfl)).ne
      rw [Function.update_of_ne hne]
      exact hwire
  case listens =>
    refine forall_update (q := fun w (wire : Wire) => wire.closeListener = true → wire.closed = false →
      ((s.modify e connect).entries wire.entry).ws = some w) (fun _ _ => ?_) fun w _ hlistens halive => ?_
    · rw [modify_entries_self]
    · have hcurrent := h.listens w hlistens halive
      have hne : (s.wires w).entry ≠ e := by
        intro heq
        rw [heq, hws] at hcurrent
        exact Option.some_ne_none w hcurrent.symm
      rw [modify_entries_of_ne _ _ hne]
      exact hcurrent
  case unopened =>
    refine forall_update (q := fun w (wire : Wire) => s.opened + 1 ≤ w → wire.closed = true) ?_
      fun w _ hle => h.unopened w (Nat.le_of_succ_le hle)
    exact fun hle => absurd hle (Nat.not_succ_le_self _)
  case entry_lt =>
    exact forall_update (q := fun _ (wire : Wire) => wire.closed = false → wire.entry < s.created)
      (fun _ => (h.held _ e hheld).1) fun w _ => h.entry_lt w
  case delivered => exact h.delivered

/-- The first listener of a symbol comes with a new entry. -/
theorem Wired.enter (h : s.Wired) (he : s.sockets key = none) {refs : List ℕ} (hrefs : refs ≠ []) :
    Wired { s.note key refs with
      sockets := Function.update s.sockets key (some s.created)
      entries := Function.update s.entries s.created
        { SymbolSocket.new key with refs := refs, heartbeatTimer := true }
      created := s.created + 1 } := by
  let first : SymbolSocket := { SymbolSocket.new key with refs := refs, heartbeatTimer := true }
  have hheld : Function.update s.sockets key (some s.created) key = some s.created :=
    Function.update_self _ _ _
  constructor
  case held =>
    intro k e' hk
    show e' < s.created + 1 ∧ (Function.update s.entries s.created first e').symbol = k ∧
      (Function.update s.entries s.created first e').refs =
        Function.update s.subscribers key refs k ∧
      (Function.update s.entries s.created first e').refs ≠ []
    by_cases hkey : k = key
    · subst hkey
      obtain rfl : s.created = e' := Option.some.inj (hheld.symm.trans hk)
      rw [Function.update_self, Function.update_self]
      exact ⟨Nat.lt_succ_self _, rfl, rfl, hrefs⟩
    · have hk' : s.sockets k = some e' := (Function.update_of_ne hkey _ _).symm.trans hk
      obtain ⟨hlt, hentry⟩ := h.held k e' hk'
      rw [Function.update_of_ne hlt.ne, Function.update_of_ne hkey]
      exact ⟨Nat.lt_succ_of_lt hlt, hentry⟩
  case absent =>
    intro k hk
    have hkey : k ≠ key := by
      rintro rfl
      exact Option.some_ne_none _ (hheld.symm.trans hk)
    have hk' : s.sockets k = none := (Function.update_of_ne hkey _ _).symm.trans hk
    exact (Function.update_of_ne hkey _ _).trans (h.absent k hk')
  case dropped =>
    refine forall_update (q := fun e' (entry : SymbolSocket) =>
      Function.update s.sockets key (some s.created) entry.symbol ≠ some e' → entry.Inert)
      (fun hdropped => absurd hheld hdropped) fun e' _ hdropped => h.dropped e' fun hsome => ?_
    have hkey : (s.entries e').symbol ≠ key := by
      intro heq
      rw [heq, he] at hsome
      exact Option.some_ne_none e' hsome.symm
    rw [Function.update_of_ne hkey] at hdropped
    exact hdropped hsome
  case waits =>
    exact forall_update (q := fun _ (entry : SymbolSocket) =>
      entry.reconnectTimer ≠ none → entry.ws = none) (fun _ => rfl) fun e' _ => h.waits e'
  case ws =>
    refine forall_update (q := fun e' (entry : SymbolSocket) => ∀ w, entry.ws = some w →
      s.wires w = ⟨e', true, false⟩) (fun w hw => ?_) fun e' _ => h.ws e'
    exact absurd hw.symm (Option.some_ne_none w)
  case listens =>
    intro w hlistens halive
    have hne : (s.wires w).entry ≠ s.created := (h.entry_lt w halive).ne
    show (Function.update s.entries _ _ (s.wires w).entry).ws = some w
    rw [Function.update_of_ne hne]
    exact h.listens w hlistens halive
  case unopened => exact h.unopened
  case entry_lt => exact fun w halive => Nat.lt_succ_of_lt (h.entry_lt w halive)
  case delivered => exact h.delivered

/-- A new entry, with the socket that the hub has tried to open for it. -/
theorem Wired.create (h : s.Wired) (he : s.sockets key = none) (onTick : ℕ) (constructed : Bool) :
    ({ (s.note key (addRef (s.subscribers key) onTick)).createSocket key constructed with
      sockets := Function.update s.sockets key (some s.created) }.modify s.created fun entry =>
        { entry with refs := addRef entry.refs onTick }).Wired := by
  have hentered := h.enter he (addRef_ne_nil [] onTick)
  rw [h.absent key he]
  cases constructed with
  | true =>
    have hopen := hentered.openSocket (e := s.created)
    simp only [createSocket, «open», if_true, setWire, modify, note, Function.update_self,
      Function.update_idem] at hopen ⊢
    exact hopen (addRef_ne_nil [] onTick) rfl rfl
  | false =>
    simp only [createSocket, «open», Bool.false_eq_true, if_false, SymbolStreamHub.scheduleReconnect,
      modify, note, Function.update_self, Function.update_idem, SymbolSocket.new, true_or, if_true]
      at hentered ⊢
    exact hentered

/-- The last listener leaves an entry without a socket, and the entry goes. -/
theorem Wired.drop (h : s.Wired) (he : s.sockets key = some e) (hws : (s.entries e).ws = none) :
    Wired ({ s.note key [] with sockets := Function.update s.sockets key none }.modify e
      fun entry => { entry with refs := [], reconnectTimer := none, heartbeatTimer := false }) := by
  obtain ⟨-, hsymbol, -, -⟩ := h.held key e he
  let gone (entry : SymbolSocket) : SymbolSocket :=
    { entry with refs := [], reconnectTimer := none, heartbeatTimer := false }
  -- the other entries of the hub have other symbols
  have hother : ∀ k e', Function.update s.sockets key none k = some e' →
      k ≠ key ∧ s.sockets k = some e' ∧ e' ≠ e := by
    intro k e' hk
    have hkey : k ≠ key := by
      rintro rfl
      rw [Function.update_self] at hk
      exact Option.some_ne_none e' hk.symm
    rw [Function.update_of_ne hkey] at hk
    refine ⟨hkey, hk, ?_⟩
    rintro rfl
    exact hkey ((h.held k e' hk).2.1.symm.trans hsymbol)
  have hsockets : ∀ e', ((s.modify e gone).entries e').ws = (s.entries e').ws :=
    forall_modify (q := fun e' entry => entry.ws = (s.entries e').ws) rfl fun _ _ => rfl
  constructor
  case held =>
    intro k e' hk
    obtain ⟨hkey, hk', hne⟩ := hother k e' hk
    show e' < s.created ∧ ((s.modify e gone).entries e').symbol = k ∧
      ((s.modify e gone).entries e').refs = Function.update s.subscribers key [] k ∧
      ((s.modify e gone).entries e').refs ≠ []
    rw [modify_entries_of_ne _ _ hne, Function.update_of_ne hkey]
    exact h.held k e' hk'
  case absent =>
    refine forall_update (q := fun k refs => Function.update s.sockets key none k = none → refs = [])
      (fun _ => rfl) fun k hkey hk => h.absent k ?_
    rwa [Function.update_of_ne hkey] at hk
  case dropped =>
    refine forall_modify (q := fun e' entry =>
      Function.update s.sockets key none entry.symbol ≠ some e' → entry.Inert)
      (fun _ => ⟨hws, rfl, rfl, rfl⟩) fun e' hne hdropped => h.dropped e' fun hsome => ?_
    have hkey : (s.entries e').symbol ≠ key := by
      intro heq
      rw [heq, he] at hsome
      exact hne (Option.some.inj hsome).symm
    exact hdropped ((Function.update_of_ne hkey _ _).trans hsome)
  case waits =>
    exact forall_modify (q := fun _ entry => entry.reconnectTimer ≠ none → entry.ws = none)
      (fun _ => hws) fun e' _ => h.waits e'
  case ws =>
    intro e' w hw
    exact h.ws e' w ((hsockets e').symm.trans hw)
  case listens =>
    intro w hlistens halive
    exact (hsockets _).trans (h.listens w hlistens halive)
  case unopened => exact h.unopened
  case entry_lt => exact h.entry_lt
  case delivered => exact h.delivered

/-- The last listener leaves, and the entry goes. -/
theorem Wired.closeSocket (h : s.Wired) (he : s.sockets key = some e) {onTick : ℕ}
    (hrefs : removeRef (s.entries e).refs onTick = []) :
    (((s.note key (removeRef (s.subscribers key) onTick)).modify e fun entry =>
      { entry with refs := removeRef entry.refs onTick }).closeSocket key e).Wired := by
  have hsame : (s.entries e).refs = s.subscribers key := (h.held key e he).2.2.1
  cases hcurrent : (s.entries e).ws with
  | none =>
    have hgone := h.drop he hcurrent
    simp only [SymbolStreamHub.closeSocket, modify, note, Function.update_self,
      Function.update_idem, hcurrent, ← hsame, hrefs] at hgone ⊢
    exact hgone
  | some w =>
    have hgone := (h.detach hcurrent).drop he (by rw [SymbolStreamHub.detach, modify_entries_self])
    simp only [SymbolStreamHub.closeSocket, SymbolStreamHub.detach, setWire, modify, note,
      Function.update_self, Function.update_idem, hcurrent, ← hsame, hrefs] at hgone ⊢
    exact hgone

/-- Ticks reach the listeners of the entry: the subscribers, if the hub has the entry. -/
theorem Wired.handleMessage [CaseMapping] (h : s.Wired) (number : Value → Option ℚ) (e : ℕ)
    (frame : Option Value) : (s.handleMessage number e frame).Wired := by
  rw [SymbolStreamHub.handleMessage]
  cases parseTick number (s.entries e).symbol s.now frame with
  | none => exact h
  | some tick =>
    refine ⟨h.held, h.absent, h.dropped, h.waits, h.ws, h.listens, h.unopened, h.entry_lt, ?_⟩
    refine List.forall_mem_cons.mpr ⟨?_, h.delivered⟩
    by_cases hheld : s.sockets (s.entries e).symbol = some e
    · simp only [hheld, decide_true, if_true]
      exact (h.held _ e hheld).2.2.1
    · simp only [hheld, decide_false, Bool.false_eq_true, if_false]
      exact (h.dropped e hheld).refs

/-- With its close handler a socket is the current one of its entry. -/
theorem Wired.onClose_eq (h : s.Wired) (hlistens : (s.wires w).closeListener = true)
    (halive : (s.wires w).closed = false) :
    (s.setWire w { s.wires w with closed := true }).onClose w =
      (((s.setWire w { s.wires w with closed := true }).modify (s.wires w).entry fun entry =>
        { entry with ws := none }).scheduleReconnect (s.wires w).entry) := by
  have hws : (s.entries (s.wires w).entry).ws = some w := h.listens w hlistens halive
  simp only [onClose, setWire, Function.update_self, hws, if_true]

end Steps

section Run

theorem createSocket_sockets (s : SymbolStreamHub) (symbol : String) (constructed : Bool) :
    (s.createSocket symbol constructed).sockets = s.sockets := by
  cases constructed with
  | true => rfl
  | false =>
    simp only [createSocket, «open», Bool.false_eq_true, if_false, scheduleReconnect, modify]
    split_ifs <;> rfl

theorem Wired.start : start.Wired where
  held _ _ h := (Option.some_ne_none _ h.symm).elim
  absent _ _ := rfl
  dropped _ _ := ⟨rfl, rfl, rfl, rfl⟩
  waits _ _ := rfl
  ws _ _ h := (Option.some_ne_none _ h.symm).elim
  listens _ h := (Bool.false_ne_true h).elim
  unopened _ _ := rfl
  entry_lt _ h := (Bool.false_ne_true h.symm).elim
  delivered _ h := (List.not_mem_nil h).elim

theorem Wired.subscribe [CaseMapping] {s : SymbolStreamHub} (h : s.Wired) (symbol : String)
    (onTick : ℕ) (constructed : Bool) : (s.subscribe symbol onTick constructed).Wired := by
  rw [SymbolStreamHub.subscribe]
  cases he : s.sockets (toUpperCase symbol) with
  | some e => exact h.addListener he onTick
  | none =>
    simp only [createSocket_sockets]
    exact h.create he onTick constructed

theorem Wired.unsubscribe {s : SymbolStreamHub} (h : s.Wired) (key : String) (onTick : ℕ) :
    (s.unsubscribe key onTick).Wired := by
  rw [SymbolStreamHub.unsubscribe]
  cases he : s.sockets key with
  | none =>
    have hnote : s.note key (removeRef (s.subscribers key) onTick) = s := by
      rw [note, h.absent key he, removeRef, List.filter_nil, ← h.absent key he,
        Function.update_eq_self]
    rw [hnote]
    exact h
  | some e =>
    simp only [modify_entries_self]
    split_ifs with hlast
    · exact h.closeSocket he hlast
    · exact h.removeListener he hlast

/-- An entry whose timer runs has listeners. -/
theorem Wired.refs_of_timer {s : SymbolStreamHub} {e : ℕ} (h : s.Wired)
    (htimer : (s.entries e).reconnectTimer ≠ none) : (s.entries e).refs ≠ [] := by
  by_cases hheld : s.sockets (s.entries e).symbol = some e
  · exact (h.held _ e hheld).2.2.2
  · exact absurd (h.dropped e hheld).reconnectTimer htimer

theorem Wired.reconnect {s : SymbolStreamHub} {e : ℕ} (h : s.Wired)
    (htimer : (s.entries e).reconnectTimer ≠ none) (constructed : Bool) :
    ((s.modify e fun entry => { entry with reconnectTimer := none }).open e constructed).Wired := by
  have hclear := h.clearTimer e
  have hws : ((s.modify e fun entry => { entry with reconnectTimer := none }).entries e).ws =
      none := by
    rw [modify_entries_self]
    exact h.waits e htimer
  cases constructed with
  | true =>
    apply hclear.openSocket _ hws
    · rw [modify_entries_self]
    · rw [modify_entries_self]
      exact h.refs_of_timer htimer
  | false => exact hclear.scheduleReconnect hws

theorem Wired.close {s : SymbolStreamHub} {w : ℕ} (h : s.Wired)
    (halive : (s.wires w).closed = false) :
    (if (s.wires w).closeListener then
      (s.setWire w { s.wires w with closed := true }).onClose w
    else s.setWire w { s.wires w with closed := true }).Wired := by
  split_ifs with hlistens
  · rw [h.onClose_eq hlistens halive]
    apply (h.closeCurrent (h.listens w hlistens halive)).scheduleReconnect
    rw [modify_entries_self]
  · exact h.closeQuietly (Bool.eq_false_of_not_eq_true hlistens)

theorem Wired.heartbeat {s : SymbolStreamHub} (h : s.Wired) (e : ℕ) : (s.heartbeat e).Wired := by
  rw [SymbolStreamHub.heartbeat]
  cases hws : (s.entries e).ws with
  | none => exact h
  | some w =>
    simp only
    split_ifs
    · apply (h.detach hws).scheduleReconnect
      rw [SymbolStreamHub.detach, modify_entries_self]
    · exact h

variable [CaseMapping] (number : Value → Option ℚ)

theorem Wired.step (s : SymbolStreamHub) (a : HubAction) (s' : SymbolStreamHub) (h : s.Wired)
    (hstep : s.step number a = some s') : s'.Wired := by
  cases a with
  | wait ms =>
    obtain rfl := Option.some.inj hstep
    exact ⟨h.held, h.absent, h.dropped, h.waits, h.ws, h.listens, h.unopened, h.entry_lt,
      h.delivered⟩
  | subscribe symbol onTick constructed =>
    obtain rfl := Option.some.inj hstep
    exact h.subscribe symbol onTick constructed
  | unsubscribe key onTick =>
    obtain rfl := Option.some.inj hstep
    exact h.unsubscribe key onTick
  | opened w =>
    obtain ⟨-, ⟨⟩⟩ := Option.ite_none_left_eq_some.mp hstep
    exact h.touch _ 0 s.now
  | message w frame =>
    obtain ⟨-, ⟨⟩⟩ := Option.ite_none_left_eq_some.mp hstep
    exact (h.touch _ _ s.now).handleMessage number _ frame
  | error w =>
    obtain ⟨-, ⟨⟩⟩ := Option.ite_none_left_eq_some.mp hstep
    exact h
  | close w =>
    obtain ⟨halive, hclose⟩ := Option.ite_none_left_eq_some.mp hstep
    obtain rfl := Option.some.inj hclose
    exact h.close (Bool.eq_false_of_not_eq_true halive)
  | reconnect e constructed =>
    simp only [SymbolStreamHub.step] at hstep
    cases htimer : (s.entries e).reconnectTimer with
    | none =>
      rw [htimer] at hstep
      cases hstep
    | some due =>
      rw [htimer] at hstep
      obtain ⟨-, ⟨⟩⟩ := Option.ite_none_right_eq_some.mp hstep
      exact h.reconnect (htimer ▸ Option.some_ne_none due) constructed
  | heartbeat e =>
    obtain ⟨-, ⟨⟩⟩ := Option.ite_none_right_eq_some.mp hstep
    exact h.heartbeat e

end Run

end SymbolStreamHub

end BotHive.Crypto
