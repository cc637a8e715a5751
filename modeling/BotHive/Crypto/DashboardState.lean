import BotHive.Crypto.Dashboard

/-!
# What the dashboard shows

A ledger is read back in full, but it is also shown when the bot has run dry since. The reader
of the dry positions knows only the format without average entries, and finds no position in the
current one. The spend is the sum over the keys of all days that have not expired.

## Main definitions

- `CryptoKeys.Legible`: no ledger hides a dry state, the dry state has no positions, and the keys
  of other days hold nothing

## Main results

- `readPositions_snapshot`, `readOrders_snapshot`: a ledger is read back
- `dailySpend_eq_iff`: when the sum over all days is the spend of one day
- `shows_iff_legible`: the dashboard shows what was persisted last exactly then
-/

namespace BotHive.Crypto

section Copies

/-- The JSON copy of a snapshot, with its records in some order. -/
theorem snapshot_copy (l : TradeLedger) (now : ℕ) :
    ∃ (positions avgEntry : List (String × ℚ)) (orders : List (String × TrackedOrder))
      (highs : List (String × Value)),
      positions.Perm l.positions.entries ∧ avgEntry.Perm l.avgEntry.entries ∧
        orders.Perm l.openOrders.entries ∧
        (l.snapshot now).jsonCopy = some (.obj
          [("positions", .obj (positions.map (Prod.map id .num))),
            ("avgEntry", .obj (avgEntry.map (Prod.map id .num))),
            ("realizedPnl", .num l.realizedPnl),
            ("openOrders", .obj (orders.map (Prod.map id TrackedOrder.toValue))),
            ("trailingHigh", .obj highs), ("updatedAt", .num now)]) := by
  obtain ⟨positions, hp, hpcopy⟩ :=
    TradeLedger.recordEntries_copy .num l.positions Value.jsonCopy_num
  obtain ⟨avgEntry, ha, hacopy⟩ :=
    TradeLedger.recordEntries_copy .num l.avgEntry Value.jsonCopy_num
  obtain ⟨highs, -, hhcopy⟩ :=
    TradeLedger.recordEntries_copy .num l.trailingHigh Value.jsonCopy_num
  obtain ⟨orders, ho, hocopy⟩ :=
    TradeLedger.recordEntries_copy TrackedOrder.toValue l.openOrders TrackedOrder.jsonCopy_toValue
  exact ⟨positions, avgEntry, orders, highs.map (Prod.map id .num), hp, ha, ho,
    TradeLedger.jsonCopy_snapshot hpcopy hacopy hocopy hhcopy now⟩

theorem positive?_num {q : ℚ} (hq : 0 < q) : positive? (.num q) = some q :=
  Option.filter_some.trans (if_pos (decide_eq_true hq))

/-- A record that lists the entries of a map is read like the map. -/
theorem field_record {entries : List (String × ℚ)} {m : InsertionMap String ℚ}
    (hperm : entries.Perm m.entries) (name : String) :
    (Value.obj (entries.map (Prod.map id .num))).field name =
      ((m.get name).map Value.num).getD .undefined := by
  have hnodup : (entries.map Prod.fst).Nodup := ((hperm.map Prod.fst).nodup_iff).mpr m.nodup
  have hlookup : InsertionMap.lookup name entries = m.get name := by
    refine Option.ext fun v => ?_
    rw [InsertionMap.lookup_eq_some_iff hnodup, hperm.mem_iff, m.mem_entries_iff]
  show (Value.ownField name (entries.map (Prod.map id .num))).getD .undefined = _
  rw [Value.ownField_eq_lookup, ← hlookup]
  exact congrArg (Option.getD · _) (InsertionMap.lookup_map (fun _ => Value.num) name entries)

end Copies

section Reading

variable [CaseMapping] {l : TradeLedger} {order : TrackedOrder} (stringOf : Value → String)

/-- Positions and their average entries are read back. -/
theorem readPositions_snapshot (h : l.WellFormed) {positions avgEntry : List (String × ℚ)}
    (hp : positions.Perm l.positions.entries) (ha : avgEntry.Perm l.avgEntry.entries) :
    (readPositions (.obj (positions.map (Prod.map id .num)))
      (.obj (avgEntry.map (Prod.map id .num)))).Perm
        (l.positions.entries.map fun e => ⟨e.1, e.2, l.avgEntry.get e.1⟩) := by
  have hentry (s : String) :
      positive? ((Value.obj (avgEntry.map (Prod.map id .num))).field s) = l.avgEntry.get s := by
    rw [field_record ha]
    cases hs : l.avgEntry.get s with
    | none => rfl
    | some e => exact positive?_num ((h.stored s).entry_pos e hs)
  refine List.Perm.trans (.of_eq ?_) (hp.map _)
  rw [readPositions, Value.entries, List.filterMap_map]
  refine List.filterMap_eq_map_iff_forall_eq_some.mpr fun e he => ?_
  have hget : l.positions.get e.1 = some e.2 :=
    (l.positions.mem_entries_iff e.1 e.2).mp (hp.mem_iff.mp he)
  have hquantity : positive? (.num e.2) = some e.2 :=
    positive?_num ((h.stored e.1).position_pos e.2 hget)
  show (positive? (.num e.2)).map (fun quantity => (⟨toUpperCase e.1, quantity,
    positive? ((Value.obj (avgEntry.map (Prod.map id .num))).field e.1)⟩ : CryptoPosition)) = _
  rw [hquantity, Option.map_some, hentry, h.upper e.1 (hget ▸ rfl)]

/-- An order as the reader gives it. -/
def TrackedOrder.read (order : TrackedOrder) : CryptoOpenOrder :=
  { order.shown with
    symbol := toUpperCase order.symbol
    price := order.price.filter (0 < ·) }

theorem readOrder_toValue (h : ValidOrder order) :
    readOrder stringOf order.toValue = some order.read := by
  obtain ⟨clientOrderId, orderId, symbol, side, type, price, quantity, placedAt⟩ := order
  have hid : clientOrderId ≠ "" := h.clientOrderId_ne
  have hquantity : (positive? (.num quantity)).getD 0 = quantity := by
    rcases (h.quantity_nonneg : 0 ≤ quantity).lt_or_eq with hpos | rfl
    · rw [positive?_num hpos, Option.getD_some]
    · rfl
  have hprice : positive? (price.elim .null .num) = price.filter (0 < ·) := by
    cases price <;> rfl
  have hside : (if side.toText = "sell" then Side.sell else .buy) = side := by
    cases side <;> rfl
  have htype : (if type.toText = "limit" then OrderType.limit else .market) = type := by
    cases type <;> rfl
  have hsymbol : (Value.str symbol).orElse (.str "") = .str symbol := rfl
  simp [readOrder, TrackedOrder.toValue, Value.field, Value.member, Value.ownField, Value.text?,
    Value.number?, hid, hquantity, hprice, hside, htype, hsymbol, TrackedOrder.read,
    TrackedOrder.shown]

/-- The orders shown are those of the ledger exactly when each of them is read as it is. -/
theorem readOrders_snapshot (h : l.WellFormed) {orders : List (String × TrackedOrder)}
    (ho : orders.Perm l.openOrders.entries) :
    (readOrders stringOf (.obj (orders.map (Prod.map id TrackedOrder.toValue)))).Perm
      (l.openOrders.values.map TrackedOrder.read) := by
  have hvalid : ∀ e ∈ orders, ValidOrder e.2 := fun e he =>
    (h.orders e.1 e.2 ((l.openOrders.mem_entries_iff e.1 e.2).mp (ho.mem_iff.mp he))).2
  have hread : readOrders stringOf (.obj (orders.map (Prod.map id TrackedOrder.toValue))) =
      (orders.map Prod.snd).map TrackedOrder.read := by
    rw [readOrders, Value.entries, List.map_map, List.map_map, List.filterMap_map]
    exact List.filterMap_eq_map_iff_forall_eq_some.mpr fun e he =>
      readOrder_toValue stringOf (hvalid e he)
  rw [hread]
  exact (ho.map Prod.snd).map TrackedOrder.read

theorem TrackedOrder.read_eq_shown_iff (order : TrackedOrder) :
    order.read = order.shown ↔
      toUpperCase order.symbol = order.symbol ∧ ∀ price, order.price = some price → 0 < price := by
  have hprice : order.price.filter (0 < ·) = order.price ↔
      ∀ price, order.price = some price → 0 < price := by
    cases order.price with
    | none => simp
    | some price => simp [Option.filter_some]
  rw [← hprice]
  constructor
  · intro heq
    exact ⟨congrArg CryptoOpenOrder.symbol heq, congrArg CryptoOpenOrder.price heq⟩
  · rintro ⟨hsymbol, hprice⟩
    rw [TrackedOrder.read, hsymbol, hprice]
    rfl

theorem perm_read_iff (h : l.WellFormed) :
    (l.openOrders.values.map TrackedOrder.read).Perm (l.openOrders.values.map TrackedOrder.shown) ↔
      ∀ order ∈ l.openOrders.values, order.read = order.shown := by
  constructor
  · intro hperm order horder
    obtain ⟨other, hother, heq⟩ :=
      List.mem_map.mp (hperm.mem_iff.mp (List.mem_map_of_mem horder))
    obtain ⟨id, hid⟩ := (l.openOrders.mem_values_iff order).mp horder
    obtain ⟨id', hid'⟩ := (l.openOrders.mem_values_iff other).mp hother
    -- an order is stored under its own id, which both forms show
    have hsame : other.clientOrderId = order.clientOrderId :=
      congrArg CryptoOpenOrder.clientOrderId heq
    rw [(h.orders id order hid).1, (h.orders id' other hid').1] at hsame
    rw [hsame, hid, Option.some.injEq] at hid'
    rw [← heq, hid']
  · intro heq
    rw [List.map_congr_left heq]

end Reading

/-- What the dashboard can show. -/
structure CryptoKeys.Legible [CaseMapping] (s : CryptoKeys) : Prop where
  orders : ∀ ledger, s.last = .live ledger → ∀ order ∈ ledger.1.openOrders.values,
    toUpperCase order.symbol = order.symbol ∧ ∀ price, order.price = some price → 0 < price
  dry : ∀ state, s.last = .dry state → s.live = none ∧ state.positions.entries = []
  daily : ∀ day counter, s.daily.get day = some counter → day ≠ s.today →
    (counter.read s.now).cents ≤ 0

section Spend

variable {s : CryptoKeys}

theorem DayCounter.spend_nonneg (counter : DayCounter) (now : ℕ) : 0 ≤ counter.spend now := by
  rw [DayCounter.spend]
  split_ifs with h
  · exact div_nonneg (Int.cast_nonneg h.le) (by norm_num)
  · exact le_rfl

theorem DayCounter.spend_eq_zero_iff (counter : DayCounter) (now : ℕ) :
    counter.spend now = 0 ↔ (counter.read now).cents ≤ 0 := by
  rw [DayCounter.spend]
  split_ifs with h
  · have hpos : (0 : ℚ) < (counter.read now).cents / 100 :=
      div_pos (Int.cast_pos.mpr h) (by norm_num)
    exact iff_of_false hpos.ne' (not_le.mpr h)
  · exact iff_of_true rfl (not_lt.mp h)

variable [CaseMapping]

/-- The spend of the current day and that of all others. -/
theorem CryptoKeys.dailySpend_eq (s : CryptoKeys) :
    s.dailySpendUsdt = (s.daily.delete s.today).total (fun _ counter => counter.spend s.now) +
      (s.counter s.today).spend s.now := by
  rw [CryptoKeys.dailySpendUsdt, CryptoKeys.counter]
  cases hget : s.daily.get s.today with
  | none =>
    have hmissing : DayCounter.missing.spend s.now = 0 := rfl
    rw [InsertionMap.delete_of_get_none s.daily hget, Option.getD_none, hmissing, add_zero]
  | some counter =>
    exact (InsertionMap.total_delete_add (fun _ c => DayCounter.spend c s.now) s.daily hget).symm

/-- The sum is the spend of the current day iff the other days hold nothing. -/
theorem CryptoKeys.dailySpend_eq_iff (s : CryptoKeys) :
    s.dailySpendUsdt = (s.counter s.today).spend s.now ↔
      ∀ day counter, s.daily.get day = some counter → day ≠ s.today →
        (counter.read s.now).cents ≤ 0 := by
  rw [s.dailySpend_eq, add_eq_right,
    InsertionMap.total_eq_zero_iff fun _ counter => DayCounter.spend_nonneg counter s.now]
  constructor
  · intro h day counter hget hday
    refine (counter.spend_eq_zero_iff s.now).mp (h day counter ?_)
    rw [InsertionMap.get_delete_of_ne s.daily hday, hget]
  · intro h day counter hget
    rw [InsertionMap.get_delete] at hget
    split_ifs at hget with hday
    exact (counter.spend_eq_zero_iff s.now).mpr (h day counter hget hday)

end Spend

section Runs

variable [CaseMapping] {s : CryptoKeys}

/-- What was persisted last is what its key holds. -/
def CryptoKeys.Persists (s : CryptoKeys) : Prop :=
  match s.last with
  | .nothing => s.live = none ∧ s.positions = none
  | .live ledger => ∃ now, s.live = (ledger.1.snapshot now).jsonCopy
  | .dry state => s.positions = state.toValue.jsonCopy

theorem persists_step (h : s.Persists) (write : CryptoWrite) : (s.step write).Persists := by
  cases write with
  | saveLedger ledger => exact ⟨s.now, rfl⟩
  | saveDryState state => exact rfl
  | claimDailySpend cents capCents => exact h
  | refundDailySpend cents => exact h
  | tick ms => exact h

theorem persists_after (writes : List CryptoWrite) : (CryptoKeys.after writes).Persists := by
  have hrun : ∀ s : CryptoKeys, s.Persists → (writes.foldl CryptoKeys.step s).Persists := by
    induction writes with
    | nil => exact fun s hs => hs
    | cons write rest ih => exact fun s hs => ih (s.step write) (persists_step hs write)
  exact hrun .start ⟨rfl, rfl⟩

/-- The reader finds no position in the current format. -/
theorem readPositions_dryState (state : DryState) :
    ∃ copy, state.toValue.jsonCopy = some copy ∧ copy.isNullish = false ∧
      readPositions copy .undefined = [] := by
  have hamount : ∀ a : Amount, a.toValue.jsonCopy = some a.toValue := by
    intro a
    cases a <;> rw [Amount.toValue, Value.jsonCopy]
  obtain ⟨positions, -, hp⟩ :=
    TradeLedger.recordEntries_copy .num state.positions Value.jsonCopy_num
  obtain ⟨avgEntry, -, ha⟩ :=
    TradeLedger.recordEntries_copy Amount.toValue state.avgEntries hamount
  obtain ⟨highs, -, hh⟩ :=
    TradeLedger.recordEntries_copy .num state.trailingHighs Value.jsonCopy_num
  have hnames : ∀ name ∈ ["positions", "avgEntry", "trailingHigh"],
      Value.arrayIndex? name = none := by
    decide
  refine ⟨.obj
    [("positions", .obj (positions.map (Prod.map id .num))),
      ("avgEntry", .obj (avgEntry.map (Prod.map id Amount.toValue))),
      ("trailingHigh", .obj (highs.map (Prod.map id .num)))], ?_, rfl, ?_⟩
  · simp only [DryState.toValue, Value.jsonCopy, Value.copyFields, hp, ha, hh, Value.fromEntries]
    rw [Value.propertyOrder_of_no_index (by exact hnames)]
  · rfl

variable (stringOf : Value → String) (collate : String → String → Bool)

/-- After a ledger the dashboard shows it, but for the orders that are read in another form. -/
theorem shows_iff_of_live (h : s.Persists) {ledger : BuiltLedger} (hlast : s.last = .live ledger) :
    Shows s (getCryptoState stringOf collate s) ↔ s.Legible := by
  rw [CryptoKeys.Persists, hlast] at h
  obtain ⟨now, hlive⟩ := h
  obtain ⟨positions, avgEntry, orders, highs, hp, ha, ho, hcopy⟩ := snapshot_copy ledger.1 now
  rw [hcopy] at hlive
  have hshown : getCryptoState stringOf collate s =
      { tradeMode := some .live
        positions := sortPositions collate
          (readPositions (.obj (positions.map (Prod.map id .num)))
            (.obj (avgEntry.map (Prod.map id .num))))
        realizedPnl := some ledger.1.realizedPnl
        openOrders := (readOrders stringOf
          (.obj (orders.map (Prod.map id TrackedOrder.toValue)))).mergeSort
            fun a b => a.placedAt ≤ b.placedAt
        dailySpendUsdt := s.dailySpendUsdt
        updatedAt := some now } := by
    rw [getCryptoState, hlive]
    rfl
  have hread := (List.mergeSort_perm _ fun a b : CryptoOpenOrder =>
    decide (a.placedAt ≤ b.placedAt)).trans (readOrders_snapshot stringOf ledger.2 ho)
  rw [hshown]
  constructor
  · intro hshows
    refine ⟨fun other hother order horder => ?_, fun state hstate => ?_,
      s.dailySpend_eq_iff.mp hshows.dailySpendUsdt⟩
    · obtain rfl : ledger = other := Persisted.live.inj (hlast.symm.trans hother)
      have hperm := hread.symm.trans (hshows.openOrders ledger hlast)
      exact order.read_eq_shown_iff.mp ((perm_read_iff ledger.2).mp hperm order horder)
    · rw [hlast] at hstate
      cases hstate
  · intro hlegible
    constructor
    · rw [hlast]
      rfl
    · rw [hlast]
      exact (List.mergeSort_perm _ _).trans (readPositions_snapshot ledger.2 hp ha)
    · intro other hother
      obtain rfl : ledger = other := Persisted.live.inj (hlast.symm.trans hother)
      rfl
    · intro other hother
      obtain rfl : ledger = other := Persisted.live.inj (hlast.symm.trans hother)
      refine hread.trans ((perm_read_iff ledger.2).mpr fun order horder => ?_)
      exact order.read_eq_shown_iff.mpr (hlegible.orders ledger hlast order horder)
    · exact s.dailySpend_eq_iff.mpr hlegible.daily

theorem shows_iff_of_dry (h : s.Persists) {state : DryState} (hlast : s.last = .dry state) :
    Shows s (getCryptoState stringOf collate s) ↔ s.Legible := by
  rw [CryptoKeys.Persists, hlast] at h
  obtain ⟨copy, hcopy, hobject, hread⟩ := readPositions_dryState state
  replace h : s.positions = some copy := h.trans hcopy
  have hshown (hlive : s.live = none) : getCryptoState stringOf collate s =
      { CryptoState.none with tradeMode := some .dry, dailySpendUsdt := s.dailySpendUsdt } := by
    simp only [getCryptoState, hlive, h, hobject, hread, sortPositions, List.mergeSort_nil,
      Bool.false_eq_true, if_false]
    rfl
  constructor
  · intro hshows
    have hmode := hshows.tradeMode
    rw [hlast] at hmode
    have hlive : s.live = none := by
      cases hlive : s.live with
      | none => rfl
      | some snapshot =>
        rw [getCryptoState, hlive] at hmode
        dsimp only at hmode
        split_ifs at hmode <;> cases hmode
    rw [hshown hlive] at hshows
    refine ⟨fun ledger hledger => ?_, fun other hother => ⟨hlive, ?_⟩,
      s.dailySpend_eq_iff.mp hshows.dailySpendUsdt⟩
    · rw [hlast] at hledger
      cases hledger
    · obtain rfl : state = other := Persisted.dry.inj (hlast.symm.trans hother)
      have hpositions := hshows.positions
      rw [hlast] at hpositions
      exact List.map_eq_nil_iff.mp hpositions.nil_eq.symm
  · intro hlegible
    obtain ⟨hlive, hnone⟩ := hlegible.dry state hlast
    rw [hshown hlive]
    constructor
    · rw [hlast]
      rfl
    · rw [hlast, Persisted.positions, hnone]
      exact .nil
    · intro ledger hledger
      rw [hlast] at hledger
      cases hledger
    · intro ledger hledger
      rw [hlast] at hledger
      cases hledger
    · exact s.dailySpend_eq_iff.mpr hlegible.daily

theorem shows_iff_of_nothing (h : s.Persists) (hlast : s.last = .nothing) :
    Shows s (getCryptoState stringOf collate s) ↔ s.Legible := by
  rw [CryptoKeys.Persists, hlast] at h
  obtain ⟨hlive, hpositions⟩ : s.live = none ∧ s.positions = none := h
  have hledger (ledger : BuiltLedger) : s.last ≠ .live ledger := by
    rw [hlast]
    nofun
  have hdry (state : DryState) : s.last ≠ .dry state := by
    rw [hlast]
    nofun
  have hshown : getCryptoState stringOf collate s =
      { CryptoState.none with dailySpendUsdt := s.dailySpendUsdt } := by
    rw [getCryptoState, hlive, hpositions]
  rw [hshown]
  constructor
  · intro hshows
    exact ⟨fun ledger h => absurd h (hledger ledger), fun state h => absurd h (hdry state),
      s.dailySpend_eq_iff.mp hshows.dailySpendUsdt⟩
  · intro hlegible
    constructor
    · rw [hlast]
      rfl
    · rw [hlast]
      exact .nil
    · exact fun ledger h => absurd h (hledger ledger)
    · exact fun ledger h => absurd h (hledger ledger)
    · exact s.dailySpend_eq_iff.mpr hlegible.daily

/-- **The dashboard shows what was persisted last exactly when all of it is legible.** -/
theorem shows_iff_legible (writes : List CryptoWrite) :
    Shows (.after writes) (getCryptoState stringOf collate (.after writes)) ↔
      (CryptoKeys.after writes).Legible := by
  have hpersists := persists_after writes
  cases hlast : (CryptoKeys.after writes).last with
  | nothing => exact shows_iff_of_nothing stringOf collate hpersists hlast
  | live ledger => exact shows_iff_of_live stringOf collate hpersists hlast
  | dry state => exact shows_iff_of_dry stringOf collate hpersists hlast

end Runs

/-- A bot that has run dry holds a position, and the dashboard shows none. -/
theorem not_shows_dryPosition :
    ¬ ∀ (stringOf : Value → String) (collate : String → String → Bool)
      (writes : List CryptoWrite),
      Shows (.after writes) (getCryptoState stringOf collate (.after writes)) := by
  intro h
  let bought : DryState :=
    ⟨.ofList [("BTCUSDT", 1)], .ofList [("BTCUSDT", .finite 100)], .empty⟩
  have hlegible := (shows_iff_of_dry (fun _ => "") (fun _ _ => true)
    (persists_after [.saveDryState bought]) rfl).mp (h _ _ _)
  have hnone : [("BTCUSDT", (1 : ℚ))] = [] := (hlegible.dry bought rfl).2
  cases hnone

end BotHive.Crypto
