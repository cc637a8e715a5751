import BotHive.Workers.ScriptSync

/-!
# Convergence of script reloads

When every reload has finished and no change is pending, the registry should hold exactly
the enabled scripts of the table. Reloads do not wait for each other, so a reload that has read
the rows of a bot may register them after a later reload of the bot has dropped its scripts,
and no other reload takes out what the table no longer holds.

## Main definitions

- `DropDue`: the scripts of a bot are still to be dropped
- `InOrder`: the scripts of a bot are those of the table, as far as no reload is to register them
- `SyncState.Timely`: a reload registers what the table holds, or what is still to be dropped

## Main results

- `SyncState.AllInOrder.step`: timely steps keep every bot in order or still to be dropped
- `SyncState.converged_of_timely`: the registry converges in runs of timely steps
- `SyncState.not_converged_overtakenReload`: the registry does not converge in every run
-/

namespace BotHive.Workers

variable {Step : Type}

namespace Reload

/-- The reload reads the whole table, and clears the registry when it has. -/
def isFull : Reload Step → Prop
  | .querying .all => True
  | .answered .all _ => True
  | _ => False

/-- The bots that the reload has not come to. -/
def waiting : Reload Step → List PlainId
  | .querying scope => scope.rest
  | .answered scope _ => scope.rest
  | .finished => []

/-- The reload drops the scripts of a bot later on. -/
def WillDrop (botId : PlainId) (r : Reload Step) : Prop :=
  r.isFull ∨ botId ∈ r.waiting

/-- The reload is about to register a row, as far as it has read. -/
def Brings (e : String × ScriptRow Step) : Reload Step → Prop
  | .querying scope => scope.covers e = true
  | .answered _ rows => e ∈ rows
  | .finished => False

end Reload

/-- The scripts of a bot are to be dropped by one of the reloads, or by one that is to start. -/
def DropDue (announced : List PlainId) (reloads : List (Reload Step)) (botId : PlainId) : Prop :=
  botId ∈ announced ∨ ∃ r ∈ reloads, r.WillDrop botId

/-- The scripts of a bot are in order: what is registered is in the table, and what is in the table
    is registered or on its way. -/
structure InOrder (table : ScriptTable Step) (registered : List (Registration Step))
    (reloads : List (Reload Step)) (botId : PlainId) : Prop where
  current : ∀ x ∈ registered, x.botId = botId.1 → x ∈ (enabledScripts table).map registration
  complete : ∀ e ∈ enabledScripts table, e.2.botId = botId →
    registration e ∈ registered ∨ ∃ r ∈ reloads, r.Brings e

namespace SyncState

/-- The rows that a reload has read may be registered now: they are enabled scripts as the table
    holds them, except for bots whose scripts are still to be dropped. A reload that clears the
    registry first brings all of the enabled scripts that no other reload is about to bring. -/
def InTime (s : SyncState Step) (others : List (Reload Step)) : Reload Step → Prop
  | .answered scope rows =>
    (∀ e ∈ rows, ¬ (DropDue s.announced others e.2.botId ∨ e.2.botId ∈ scope.rest) →
      e ∈ enabledScripts s.table) ∧
    (scope = .all → ∀ e ∈ enabledScripts s.table, ¬ DropDue s.announced others e.2.botId →
      e ∈ rows ∨ ∃ r ∈ others, r.Brings e)
  | _ => True

/-- A reload goes on only in time. -/
def Timely (s : SyncState Step) : SyncAction Step → Prop
  | .resume i => ∀ r ∈ s.reloads[i]?, s.InTime (s.reloads.eraseIdx i) r
  | _ => True

/-- Every bot is in order or still to be dropped. -/
def AllInOrder (s : SyncState Step) : Prop :=
  ∃ registered, Indexed s.registry registered ∧
    ∀ botId, ¬ DropDue s.announced s.reloads botId → InOrder s.table registered s.reloads botId

end SyncState

section Deciding

variable (r : Reload Step) (botId : PlainId)

instance : Decidable r.isFull :=
  match r with
  | .querying .all | .answered .all _ => isTrue trivial
  | .querying (.bot _ _) | .answered (.bot _ _) _ | .finished => isFalse id

instance : Decidable (r.WillDrop botId) :=
  inferInstanceAs (Decidable (_ ∨ _))

instance (announced : List PlainId) (reloads : List (Reload Step)) :
    Decidable (DropDue announced reloads botId) :=
  inferInstanceAs (Decidable (_ ∨ _))

variable [DecidableEq Step]

instance (e : String × ScriptRow Step) : Decidable (r.Brings e) :=
  match r with
  | .querying scope => inferInstanceAs (Decidable (scope.covers e = true))
  | .answered _ rows => inferInstanceAs (Decidable (e ∈ rows))
  | .finished => isFalse id

instance (s : SyncState Step) (others : List (Reload Step)) : Decidable (s.InTime others r) :=
  match r with
  | .answered _ _ => inferInstanceAs (Decidable (_ ∧ _))
  | .querying _ | .finished => isTrue trivial

instance (s : SyncState Step) (a : SyncAction Step) : Decidable (s.Timely a) :=
  match a with
  | .resume i => inferInstanceAs (Decidable (∀ r ∈ s.reloads[i]?, _))
  | .write _ _ | .remove _ | .notify _ | .load _ | .answer _ => isTrue trivial

end Deciding

section Tables

@[simp] theorem mem_findMany (table : ScriptTable Step) (scope : Scope)
    (e : String × ScriptRow Step) :
    e ∈ scope.findMany table ↔
      table.get e.1 = some e.2 ∧ e.2.enabled = true ∧ scope.covers e = true := by
  rw [Scope.findMany, List.mem_filter, Bool.and_eq_true]
  exact and_congr_left' (table.mem_entries_iff e.1 e.2)

/-- A row id as a registration has it stands for the row. -/
theorem id_eq_of_sameScript {e e' : String × ScriptRow Step}
    (h : (registration e).sameScript (registration e') = true) : e.1 = e'.1 := by
  rw [Registration.sameScript, decide_eq_true_eq] at h
  have hid : (some e.1).filter (· ≠ "") = (some e'.1).filter (· ≠ "") := h.2.2
  by_cases he : e.1 = ""
  · by_cases he' : e'.1 = ""
    · rw [he, he']
    · simp [Option.filter, he, he'] at hid
  · by_cases he' : e'.1 = ""
    · simp [Option.filter, he, he'] at hid
    · simpa [Option.filter, he, he'] using hid

/-- One script has one row. -/
theorem eq_of_sameScript {table : ScriptTable Step} {e e' : String × ScriptRow Step}
    (he : e ∈ enabledScripts table) (he' : e' ∈ enabledScripts table)
    (h : (registration e).sameScript (registration e') = true) : e = e' := by
  have hid : e.1 = e'.1 := id_eq_of_sameScript h
  have hget : table.get e.1 = some e.2 := ((mem_findMany _ _ _).mp he).1
  have hget' : table.get e'.1 = some e'.2 := ((mem_findMany _ _ _).mp he').1
  rw [hid, hget'] at hget
  exact Prod.ext hid (Option.some.inj hget).symm

end Tables

section Registering

/-- What registering rows one after the other means. -/
def registerAll (registered : List (Registration Step)) (rows : List (String × ScriptRow Step)) :
    List (Registration Step) :=
  rows.foldl (fun registered e => (RegistryOp.register (registration e)).meaning registered)
    registered

theorem Indexed.foldl_registerScript {registry : ScriptRegistry Step}
    {registered : List (Registration Step)} (h : Indexed registry registered)
    (rows : List (String × ScriptRow Step)) :
    Indexed (rows.foldl registerScript registry) (registerAll registered rows) := by
  induction rows generalizing registry registered with
  | nil => exact h
  | cons e rest ih => exact ih (h.register (registration e))

theorem mem_meaning_register {x r : Registration Step} {registered : List (Registration Step)} :
    x ∈ (RegistryOp.register r).meaning registered ↔
      (x ∈ registered ∧ x.sameScript r = false) ∨ x = r := by
  simp [RegistryOp.meaning]

/-- What is registered afterwards was there before or is one of the rows. -/
theorem mem_or_of_mem_registerAll {x : Registration Step} {rows : List (String × ScriptRow Step)}
    {registered : List (Registration Step)} (h : x ∈ registerAll registered rows) :
    x ∈ registered ∨ ∃ e ∈ rows, x = registration e := by
  induction rows generalizing registered with
  | nil => exact Or.inl h
  | cons e rest ih =>
    rcases ih h with hx | ⟨e', he', rfl⟩
    · rcases mem_meaning_register.mp hx with hx | rfl
      · exact Or.inl hx.1
      · exact Or.inr ⟨e, List.mem_cons_self, rfl⟩
    · exact Or.inr ⟨e', List.mem_cons_of_mem e he', rfl⟩

/-- A script stays registered when no row registers it differently. -/
theorem mem_registerAll {x : Registration Step} {rows : List (String × ScriptRow Step)}
    {registered : List (Registration Step)}
    (hsame : ∀ e ∈ rows, x.sameScript (registration e) = true → x = registration e)
    (h : x ∈ registered ∨ ∃ e ∈ rows, x = registration e) : x ∈ registerAll registered rows := by
  induction rows generalizing registered with
  | nil =>
    rcases h with hx | ⟨e, he, -⟩
    · exact hx
    · exact absurd he List.not_mem_nil
  | cons e rest ih =>
    have hrest : ∀ e' ∈ rest, x.sameScript (registration e') = true → x = registration e' :=
      fun e' he' => hsame e' (List.mem_cons_of_mem e he')
    refine ih hrest ?_
    rcases h with hx | ⟨e', he', rfl⟩
    · refine Or.inl (mem_meaning_register.mpr ?_)
      cases hs : x.sameScript (registration e) with
      | false => exact Or.inl ⟨hx, rfl⟩
      | true => exact Or.inr (hsame e List.mem_cons_self hs)
    · rcases List.mem_cons.mp he' with rfl | he'
      · exact Or.inl (mem_meaning_register.mpr (Or.inr rfl))
      · exact Or.inr ⟨e', he', rfl⟩

end Registering

section Turns

variable {table : ScriptTable Step} {registry : ScriptRegistry Step}
  {registered : List (Registration Step)} {announced : List PlainId} {botId : PlainId}
  {reloads others : List (Reload Step)} {r : Reload Step}

theorem dropDue_iff (hmem : ∀ x, x ∈ reloads ↔ x = r ∨ x ∈ others) :
    DropDue announced reloads botId ↔ r.WillDrop botId ∨ DropDue announced others botId := by
  rw [DropDue, DropDue]
  constructor
  · rintro (hb | ⟨x, hx, hdrop⟩)
    · exact Or.inr (Or.inl hb)
    · rcases (hmem x).mp hx with rfl | hx
      · exact Or.inl hdrop
      · exact Or.inr (Or.inr ⟨x, hx, hdrop⟩)
  · rintro (hdrop | hb | ⟨x, hx, hdrop⟩)
    · exact Or.inr ⟨r, (hmem r).mpr (Or.inl rfl), hdrop⟩
    · exact Or.inl hb
    · exact Or.inr ⟨x, (hmem x).mpr (Or.inr hx), hdrop⟩

/-- What the others are about to bring is brought with one more reload, too. -/
theorem InOrder.of_others (h : InOrder table registered others botId)
    (hmem : ∀ x, x ∈ reloads ↔ x = r ∨ x ∈ others) :
    InOrder table registered reloads botId where
  current := h.current
  complete e he hbot := by
    rcases h.complete e he hbot with hreg | ⟨x, hx, hbrings⟩
    · exact Or.inl hreg
    · exact Or.inr ⟨x, (hmem x).mpr (Or.inr hx), hbrings⟩

/-- **Next bot**: the bot that a reload turns to is dropped, and its rows are on their way. -/
theorem nextBot_inOrder (hindexed : Indexed registry registered) (waiting : List PlainId)
    (h : ∀ b, ¬ DropDue announced others b → b ∉ waiting → InOrder table registered others b)
    (hmem : ∀ x, x ∈ reloads ↔ x = (nextBot registry waiting).2 ∨ x ∈ others) :
    ∃ registered', Indexed (nextBot registry waiting).1 registered' ∧
      ∀ b, ¬ DropDue announced reloads b → InOrder table registered' reloads b := by
  cases waiting with
  | nil =>
    refine ⟨registered, hindexed, fun b hdue => ?_⟩
    rw [dropDue_iff hmem, not_or] at hdue
    exact (h b hdue.2 List.not_mem_nil).of_others hmem
  | cons next rest =>
    refine ⟨_, hindexed.unregister next.2, fun b hdue => ?_⟩
    rw [dropDue_iff hmem, not_or] at hdue
    have hrest : b ∉ rest := fun hb => hdue.1 (Or.inr hb)
    by_cases hnext : b = next
    · subst hnext
      constructor
      · intro x hx hbot
        simp [hbot] at hx
      · intro e _ hbot
        exact Or.inr ⟨_, (hmem _).mpr (Or.inl rfl), decide_eq_true hbot⟩
    · have hb : b ∉ next :: rest := by
        simp [hnext, hrest]
      have hordered := (h b hdue.2 hb).of_others hmem
      constructor
      · intro x hx hbot
        exact hordered.current x (List.mem_of_mem_filter hx) hbot
      · intro e he hbot
        refine (hordered.complete e he hbot).imp_left fun hreg => ?_
        refine List.mem_filter.mpr ⟨hreg, decide_eq_true fun heq => hnext ?_⟩
        exact hbot.symm.trans (Subtype.ext heq)

/-- Registering rows that the table holds leaves a bot in order. -/
theorem inOrder_registerAll {rows : List (String × ScriptRow Step)}
    (hrows : ∀ e ∈ rows, e.2.botId = botId → e ∈ enabledScripts table)
    (hcurrent : ∀ x ∈ registered, x.botId = botId.1 →
      x ∈ (enabledScripts table).map registration)
    (hcomplete : ∀ e ∈ enabledScripts table, e.2.botId = botId →
      (registration e ∈ registered ∨ e ∈ rows) ∨ ∃ r ∈ others, r.Brings e) :
    InOrder table (registerAll registered rows) others botId where
  current x hx hbot := by
    rcases mem_or_of_mem_registerAll hx with hx | ⟨e, he, rfl⟩
    · exact hcurrent x hx hbot
    · exact List.mem_map_of_mem (hrows e he (Subtype.ext hbot))
  complete e he hbot := by
    refine (hcomplete e he hbot).imp_left fun hreg => mem_registerAll ?_ ?_
    · intro e' he' hsame
      have hbot' : e'.2.botId = botId := by
        rw [Registration.sameScript, decide_eq_true_eq] at hsame
        exact (Subtype.ext hsame.1.symm).trans hbot
      rw [eq_of_sameScript he (hrows e' he' hbot') hsame]
    · exact hreg.imp_right fun he' => ⟨e, he', rfl⟩

/-- A change of the rows of one bot, which is announced. -/
theorem InOrder.of_change {changed b : PlainId} {table' : ScriptTable Step}
    (h : InOrder table registered reloads b) (hne : b ≠ changed)
    (htable : ∀ e : String × ScriptRow Step, e.2.botId ≠ changed →
      (e ∈ enabledScripts table' ↔ e ∈ enabledScripts table)) :
    InOrder table' registered reloads b where
  current x hx hbot := by
    obtain ⟨e, he, rfl⟩ := List.mem_map.mp (h.current x hx hbot)
    have hother : e.2.botId ≠ changed := fun heq => hne ((Subtype.ext hbot).symm.trans heq)
    exact List.mem_map_of_mem ((htable e hother).mpr he)
  complete e he hbot := by
    have hother : e.2.botId ≠ changed := fun heq => hne (hbot.symm.trans heq)
    exact h.complete e ((htable e hother).mp he) hbot

/-- An answer brings what the query was about to read. -/
theorem InOrder.of_answer {scope : Scope} {reloads' : List (Reload Step)}
    (h : InOrder table registered reloads botId)
    (hmem : ∀ x, x ∈ reloads ↔ x = .querying scope ∨ x ∈ others)
    (hmem' : ∀ x, x ∈ reloads' ↔ x = .answered scope (scope.findMany table) ∨ x ∈ others) :
    InOrder table registered reloads' botId where
  current := h.current
  complete e he hbot := by
    refine (h.complete e he hbot).imp_right fun ⟨x, hx, hbrings⟩ => ?_
    rcases (hmem x).mp hx with rfl | hx
    · obtain ⟨hget, henabled, -⟩ := (mem_findMany _ _ _).mp he
      exact ⟨_, (hmem' _).mpr (Or.inl rfl), (mem_findMany _ _ _).mpr ⟨hget, henabled, hbrings⟩⟩
    · exact ⟨x, (hmem' x).mpr (Or.inr hx), hbrings⟩

end Turns

/-- An item of a list next to the others. -/
theorem mem_iff_of_getElem? {α : Type*} {l : List α} {i : ℕ} {a : α} (h : l[i]? = some a) (x : α) :
    x ∈ l ↔ x = a ∨ x ∈ l.eraseIdx i := by
  obtain ⟨hi, rfl⟩ := List.getElem?_eq_some_iff.mp h
  rw [← (List.getElem_cons_eraseIdx_perm hi).mem_iff, List.mem_cons]

/-- An item that replaces another one next to the others. -/
theorem mem_set_iff_of_getElem? {α : Type*} {l : List α} {i : ℕ} {a : α} (h : l[i]? = some a)
    (b x : α) : x ∈ l.set i b ↔ x = b ∨ x ∈ l.eraseIdx i := by
  obtain ⟨hi, -⟩ := List.getElem?_eq_some_iff.mp h
  rw [(List.set_perm_cons_eraseIdx hi b).mem_iff, List.mem_cons]

namespace SyncState

variable {s s' : SyncState Step}

/-- The rows of other bots are not concerned by a change. -/
theorem AllInOrder.change (h : s.AllInOrder) {changed : PlainId} {table' : ScriptTable Step}
    (htable : ∀ e : String × ScriptRow Step, e.2.botId ≠ changed →
      (e ∈ enabledScripts table' ↔ e ∈ enabledScripts s.table)) :
    AllInOrder { s with table := table', announced := s.announced ++ [changed] } := by
  obtain ⟨registered, hindexed, hordered⟩ := h
  refine ⟨registered, hindexed, fun b hdue => ?_⟩
  have hne : b ≠ changed := by
    rintro rfl
    exact hdue (Or.inl (by simp))
  refine (hordered b fun hdue' => hdue ?_).of_change hne htable
  exact hdue'.imp_left fun hb => List.mem_append_left _ hb

/-- A reload that starts drops the scripts of its first bot, or is about to drop all. -/
theorem allInOrder_start (botIds : List PlainId) {registered : List (Registration Step)}
    (hindexed : Indexed s.registry registered)
    (h : ∀ b, ¬ DropDue s.announced s.reloads b → b ∉ botIds →
      InOrder s.table registered s.reloads b) :
    (s.start botIds).AllInOrder := by
  cases botIds with
  | nil =>
    refine ⟨registered, hindexed, fun b hdue => absurd ?_ hdue⟩
    exact Or.inr ⟨.querying .all, by simp [SyncState.start, loadScripts], Or.inl trivial⟩
  | cons b rest =>
    refine nextBot_inOrder hindexed (b :: rest) h fun x => ?_
    rw [SyncState.start, List.mem_append, List.mem_singleton, or_comm]
    rfl

theorem AllInOrder.start (h : s.AllInOrder) (botIds : List PlainId) :
    (s.start botIds).AllInOrder := by
  obtain ⟨registered, hindexed, hordered⟩ := h
  exact allInOrder_start botIds hindexed fun b hdue _ => hordered b hdue

/-- The reload that an announcement starts drops the scripts that were to be dropped for it. -/
theorem AllInOrder.notify (h : s.AllInOrder) (botId : PlainId) :
    ({ s with announced := s.announced.erase botId }.start [botId]).AllInOrder := by
  obtain ⟨registered, hindexed, hordered⟩ := h
  refine allInOrder_start [botId] hindexed fun b hdue hb => ?_
  have hne : b ≠ botId := fun heq => hb (List.mem_singleton.mpr heq)
  refine hordered b fun hdue' => hdue ?_
  exact hdue'.imp_left fun hmem => (List.mem_erase_of_ne hne).mpr hmem

theorem AllInOrder.answer (h : s.AllInOrder) {i : ℕ} {scope : Scope}
    (hi : s.reloads[i]? = some (.querying scope)) :
    AllInOrder
      { s with reloads := s.reloads.set i (.answered scope (scope.findMany s.table)) } := by
  obtain ⟨registered, hindexed, hordered⟩ := h
  have hmem := mem_iff_of_getElem? hi
  have hmem' := mem_set_iff_of_getElem? hi (.answered scope (scope.findMany s.table))
  refine ⟨registered, hindexed, fun b hdue => (hordered b ?_).of_answer hmem hmem'⟩
  rw [dropDue_iff hmem'] at hdue
  rw [dropDue_iff hmem]
  cases scope <;> exact hdue

/-- A reload that goes on in time leaves every bot in order or still to be dropped. -/
theorem AllInOrder.resume (h : s.AllInOrder) {i : ℕ} {scope : Scope}
    {rows : List (String × ScriptRow Step)} (hi : s.reloads[i]? = some (.answered scope rows))
    (htimely : s.Timely (.resume i)) :
    AllInOrder { s with
      registry := (registerRows s.registry rows scope).1
      reloads := s.reloads.set i (registerRows s.registry rows scope).2 } := by
  obtain ⟨registered, hindexed, hordered⟩ := h
  obtain ⟨hrows, hall⟩ := htimely _ hi
  have hmem := mem_iff_of_getElem? hi
  have hmem' := mem_set_iff_of_getElem? hi (registerRows s.registry rows scope).2
  cases scope with
  | all =>
    have hclear : Indexed s.registry.clear [] := .start
    refine nextBot_inOrder (hclear.foldl_registerScript rows) [] (fun b hdue _ => ?_) hmem'
    have hnot : ¬ (DropDue s.announced (s.reloads.eraseIdx i) b ∨ b ∈ Scope.all.rest) :=
      fun hor => hor.elim hdue List.not_mem_nil
    refine inOrder_registerAll ?_ ?_ ?_
    · rintro e he rfl
      exact hrows e he hnot
    · intro x hx
      exact absurd hx List.not_mem_nil
    · rintro e he rfl
      exact (hall rfl e he hdue).imp_left Or.inr
  | bot botId rest =>
    refine nextBot_inOrder (hindexed.foldl_registerScript rows) rest (fun b hdue hb => ?_) hmem'
    have hnot : ¬ (DropDue s.announced (s.reloads.eraseIdx i) b ∨ b ∈ rest) :=
      fun hor => hor.elim hdue hb
    have hb' : InOrder s.table registered s.reloads b := by
      refine hordered b ?_
      rw [dropDue_iff hmem]
      rintro ((hfull | hrest) | hdue')
      · exact hfull
      · exact hb hrest
      · exact hdue hdue'
    refine inOrder_registerAll ?_ hb'.current ?_
    · rintro e he rfl
      exact hrows e he hnot
    · intro e he hbot
      rcases hb'.complete e he hbot with hreg | ⟨x, hx, hbrings⟩
      · exact Or.inl (Or.inl hreg)
      · rcases (hmem x).mp hx with rfl | hx
        · exact Or.inl (Or.inr hbrings)
        · exact Or.inr ⟨x, hx, hbrings⟩

/-- Timely steps keep every bot in order or still to be dropped. -/
theorem AllInOrder.step {a : SyncAction Step} (h : s.AllInOrder) (htimely : s.Timely a)
    (hstep : s.step a = some s') : s'.AllInOrder := by
  cases a with
  | write id row =>
    obtain ⟨hbot, rfl⟩ := by simpa only [SyncState.step, Option.ite_none_right_eq_some,
      Option.some.injEq] using hstep
    refine h.change fun e hother => ?_
    rw [mem_findMany, mem_findMany]
    refine and_congr_left' ?_
    rw [InsertionMap.get_set]
    split_ifs with hid
    · subst hid
      refine iff_of_false ?_ fun hget => hother (hbot _ hget)
      rintro ⟨⟩
      exact hother rfl
    · exact Iff.rfl
  | remove id =>
    obtain ⟨row, hrow, rfl⟩ := Option.map_eq_some_iff.mp hstep
    refine h.change fun e hother => ?_
    rw [mem_findMany, mem_findMany]
    refine and_congr_left' ?_
    rw [InsertionMap.get_delete]
    split_ifs with hid
    · subst hid
      refine iff_of_false (by rintro ⟨⟩) fun hget => ?_
      rw [hrow] at hget
      exact hother (congrArg ScriptRow.botId (Option.some.inj hget)).symm
    · exact Iff.rfl
  | notify botId =>
    obtain ⟨-, rfl⟩ := by simpa only [SyncState.step, Option.ite_none_right_eq_some,
      Option.some.injEq] using hstep
    exact h.notify botId
  | load botIds =>
    obtain rfl := Option.some.inj hstep
    exact h.start botIds
  | answer i =>
    rw [SyncState.step] at hstep
    split at hstep
    · next scope hi =>
      obtain rfl := Option.some.inj hstep
      exact h.answer hi
    · cases hstep
  | resume i =>
    rw [SyncState.step] at hstep
    split at hstep
    · next scope rows hi =>
      obtain rfl := Option.some.inj hstep
      exact h.resume hi htimely
    · cases hstep

end SyncState

section Settled

variable {registry : ScriptRegistry Step} {registered registered' : List (Registration Step)}

theorem Indexed.of_perm (h : Indexed registry registered) (hperm : registered.Perm registered') :
    Indexed registry registered' where
  scripts := h.scripts.trans (hperm.map _)
  index tKey := (h.index tKey).trans ((hperm.filter _).map _)

/-- No script is registered twice. -/
theorem Indexed.nodup (h : Indexed registry registered) : registered.Nodup := by
  have hkeys : (registered.map fun r => (r.key, r.script)).Nodup :=
    h.scripts.nodup_iff.mp (List.Nodup.of_map Prod.fst registry.scripts.nodup)
  exact hkeys.of_map

theorem nodup_registrations (table : ScriptTable Step) :
    ((enabledScripts table).map registration).Nodup := by
  refine List.Nodup.map_on (fun e he e' he' heq => eq_of_sameScript he he' ?_) ?_
  · rw [heq, Registration.sameScript, decide_eq_true_eq]
    exact ⟨rfl, rfl, rfl⟩
  · exact (List.Nodup.of_map Prod.fst table.nodup).filter _

namespace SyncState

variable {s : SyncState Step}

/-- When nothing is under way, every bot is in order. -/
theorem AllInOrder.converged (h : s.AllInOrder) (hsettled : s.Settled) : s.Converged := by
  obtain ⟨registered, hindexed, hordered⟩ := h
  have hdue (b : PlainId) : ¬ DropDue s.announced s.reloads b := by
    rintro (hb | ⟨r, hr, hdrop⟩)
    · rw [hsettled.1] at hb
      exact List.not_mem_nil hb
    · have hfinished := hsettled.2 r hr
      cases r with
      | finished => exact hdrop.elim id List.not_mem_nil
      | _ => exact nomatch hfinished
  refine hindexed.of_perm ?_
  rw [List.perm_ext_iff_of_nodup hindexed.nodup (nodup_registrations s.table)]
  intro x
  constructor
  · intro hx
    exact (hordered ⟨x.botId, x.botId_plain⟩ (hdue _)).current x hx rfl
  · intro hx
    obtain ⟨e, he, rfl⟩ := List.mem_map.mp hx
    rcases (hordered e.2.botId (hdue _)).complete e he rfl with hreg | ⟨r, hr, hbrings⟩
    · exact hreg
    · have hfinished := hsettled.2 r hr
      cases r with
      | finished => exact hbrings.elim
      | _ => exact nomatch hfinished

theorem Converged.allInOrder (h : s.Converged) : s.AllInOrder := by
  refine ⟨_, h, fun b _ => ⟨fun x hx _ => hx, fun e he _ => ?_⟩⟩
  exact Or.inl (List.mem_map_of_mem he)

/-- **Script reload convergence**: in a run of timely steps, the registry holds exactly the enabled
    scripts whenever all reloads have finished and no change is pending. -/
theorem converged_of_timely {actions : List (SyncAction Step)} (h : s.Converged)
    (htimely : Machine.Along step Timely s actions) :
    Machine.Everywhere step (fun s => s.Settled → s.Converged) s actions :=
  Machine.everywhere_of_invariant AllInOrder _ (fun _ _ _ hall hok hstep => hall.step hok hstep)
    (fun _ hall hsettled => hall.converged hsettled) h.allInOrder htimely

end SyncState

end Settled

section Runs

theorem plain_bot : Plain "bot" := by decide

def welcomeBot : PlainId := ⟨"bot", plain_bot⟩

/-- An enabled script. -/
def welcomeRow : ScriptRow String where
  botId := welcomeBot
  trigger := "message"
  enabled := true
  filters := []
  actions := ["reply"]
  cooldown := none
  interval := none
  trigger_plain := by decide

def noScripts : SyncState String :=
  ⟨.empty, .empty, [], []⟩

/-- A script is created and loaded. -/
def creation : List (SyncAction String) :=
  [.write "script" welcomeRow, .notify welcomeBot, .answer 0, .resume 0]

/-- The script is deleted while a reload has been started and has not read its rows. -/
def deletionBeforeAnswer : List (SyncAction String) :=
  creation ++ [.load [welcomeBot], .remove "script", .answer 1, .notify welcomeBot, .answer 2,
    .resume 2, .resume 1]

/-- The script is deleted after a reload has read it. The reload that the deletion starts comes
    to its end before the earlier one goes on. -/
def deletionAfterAnswer : List (SyncAction String) :=
  creation ++ [.load [welcomeBot], .answer 1, .remove "script", .notify welcomeBot, .answer 2,
    .resume 2, .resume 1]

namespace SyncState

theorem converged_noScripts : noScripts.Converged :=
  Indexed.start

theorem converged_of_timely_deletion :
    noScripts.Converged ∧ Machine.Along step Timely noScripts deletionBeforeAnswer ∧
      Machine.Everywhere step (fun s => s.Settled → s.Converged) noScripts deletionBeforeAnswer :=
  have htimely : Machine.Along step Timely noScripts deletionBeforeAnswer := by decide
  ⟨converged_noScripts, htimely, converged_of_timely converged_noScripts htimely⟩

/-- A deleted script stays registered. -/
theorem not_converged_overtakenReload :
    ¬ ∀ (s : SyncState String) (actions : List (SyncAction String)), s.Settled → s.Converged →
      Machine.Everywhere step (fun s => s.Settled → s.Converged) s actions := by
  intro h
  have hrun := h noScripts deletionAfterAnswer (by decide) converged_noScripts
  have hend : ∃ t, Machine.exec step noScripts deletionAfterAnswer = some t ∧ t.Settled ∧
      t.registry.scripts.size = 1 ∧ enabledScripts t.table = [] := by
    refine ⟨(Machine.exec step noScripts deletionAfterAnswer).get (by decide),
      (Option.some_get _).symm, by decide, by decide, by decide⟩
  obtain ⟨t, hexec, hsettled, hsize, henabled⟩ := hend
  have hconverged : t.Converged := hrun.at_end hexec hsettled
  have hperm := hconverged.scripts
  rw [henabled] at hperm
  have hlength : t.registry.scripts.entries.length = 0 := hperm.length_eq
  exact absurd (hsize.symm.trans hlength) (by decide)

end SyncState

end Runs

end BotHive.Workers
