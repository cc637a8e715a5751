import BotHive.Scripts.RegexAgreement
import BotHive.Scripts.ScriptOutcome

/-!
# What a run executes and reports

The actions of an accepted config are isolated from each other: an action whose condition throws
or which fails is reported, and the run goes on. The filters are not: the exception of a filter
leaves the run, nobody is told, and the exception of a custom expression counts as no match. And
a config without actions is accepted, while its run throws.

## Main results

- `performSteps_means`, `performActions_means`: what the actions of an accepted config do
- `filtersVerdict_isSome`, `filtersVerdict_of_not_readable`: what the filters do
- `runsAsMeant_iff`: a run of an accepted config is as it should be exactly when its filters are
  readable and it has actions
- `not_runsAsMeant_numberText`: a keyword filter on an event whose text is a number
-/

namespace BotHive.Scripts

section Actions

variable {lang : ScriptLanguage} {context : ScriptContext} {deadline : Option JsNumber}
  {w : RunWorld}

theorem JsNumber.le_finite {d : JsNumber} {a b : ℚ} (h : d.le (.finite a) = true) (hab : a ≤ b) :
    d.le (.finite b) = true := by
  cases d with
  | finite q => exact decide_eq_true ((of_decide_eq_true h).trans hab)
  | negInfinity => rfl
  | nan => exact h
  | posInfinity => exact h

/-- A deadline that has been reached stays so. -/
theorem reached_mono {a b : ℤ} (h : reached deadline a = true) (hab : a ≤ b) :
    reached deadline b = true := by
  cases deadline with
  | none => exact h
  | some d => exact JsNumber.le_finite h (by exact_mod_cast hab)

/-- What a list of actions does is what its placed actions should. -/
structure StepsOutcome.Means (lang : ScriptLanguage) (context : ScriptContext)
    (deadline : Option JsNumber) (w : RunWorld) (o : StepsOutcome) (placed : List PlacedStep) :
    Prop where
  settles : o.rejected = false
  executed : o.executed =
    (placed.filter fun s => s.Executes lang context deadline w).map PlacedStep.path
  failed : o.scriptFailed = true ↔ ∃ s ∈ placed, s.Troubled lang context deadline w

theorem StepsOutcome.Means.append {o o' : StepsOutcome} {placed placed' : List PlacedStep}
    (h : o.Means lang context deadline w placed) (h' : o'.Means lang context deadline w placed') :
    StepsOutcome.Means lang context deadline w
      ⟨o.executed ++ o'.executed, o.scriptFailed || o'.scriptFailed, o'.rejected⟩
      (placed ++ placed') := by
  refine ⟨h'.settles, ?_, ?_⟩
  · rw [List.filter_append, List.map_append, h.executed, h'.executed]
  · rw [Bool.or_eq_true, h.failed, h'.failed]
    simp only [List.mem_append, or_and_right, exists_or]

/-- Actions that do not come to their turn. -/
theorem StepsOutcome.Means.nothing {placed : List PlacedStep}
    (h : ∀ s ∈ placed, ¬ s.Executes lang context deadline w ∧ ¬ s.Troubled lang context deadline w) :
    StepsOutcome.Means lang context deadline w ⟨[], false, false⟩ placed := by
  refine ⟨rfl, ?_, ?_⟩
  · rw [List.filter_eq_nil_iff.mpr]
    · rfl
    · intro s hs
      simpa using (h s hs).1
  · refine iff_of_false Bool.false_ne_true ?_
    rintro ⟨s, hs, htrouble⟩
    exact (h s hs).2 htrouble

mutual

/-- A placed action is under its path, and under the actions above it. -/
theorem placedActions_place : (actions : Value) → (path : StepPath) →
    (above : List (StepPath × List (String × Value))) →
    ∀ s ∈ placedActions actions path above,
      (∃ j below, s.path = path ++ j :: below) ∧ ∀ a ∈ above, a ∈ s.above
  | .arr items, path, above, s, hs => by
    rw [placedActions] at hs
    obtain ⟨⟨j, below, -, hpath⟩, habove⟩ := placedSteps_place items path 0 above s hs
    exact ⟨⟨j, below, hpath⟩, habove⟩
  | .undefined, _, _, _, hs | .null, _, _, _, hs | .bool _, _, _, _, hs | .num _, _, _, _, hs
  | .str _, _, _, _, hs | .obj _, _, _, _, hs | .func _, _, _, _, hs => by
    rw [placedActions] at hs
    · cases hs
    · rintro _ ⟨⟩
termination_by actions => sizeOf actions

theorem placedSteps_place : (steps : List Value) → (path : StepPath) → (i : ℕ) →
    (above : List (StepPath × List (String × Value))) →
    ∀ s ∈ placedSteps steps path i above,
      (∃ j below, i ≤ j ∧ s.path = path ++ j :: below) ∧ ∀ a ∈ above, a ∈ s.above
  | [], _, _, _, _, hs => by
    rw [placedSteps] at hs
    cases hs
  | .obj fields :: rest, path, i, above, s, hs => by
    rw [placedSteps] at hs
    rcases List.mem_append.mp hs with hs | hs
    · rcases List.mem_cons.mp hs with rfl | hs
      · exact ⟨⟨i, [], le_refl i, rfl⟩, fun _ => id⟩
      · split at hs
        · obtain ⟨⟨j, below, hpath⟩, habove⟩ :=
            placedActions_place (Value.own fields "actions") _ _ s hs
          refine ⟨⟨i, j :: below, le_refl i, ?_⟩, fun a ha =>
            habove a (List.mem_cons_of_mem _ ha)⟩
          rw [hpath, List.append_assoc, List.singleton_append]
        · cases hs
    · obtain ⟨⟨j, below, hle, hpath⟩, habove⟩ := placedSteps_place rest path (i + 1) above s hs
      exact ⟨⟨j, below, Nat.le_of_succ_le hle, hpath⟩, habove⟩
  | .undefined :: rest, path, i, above, s, hs | .null :: rest, path, i, above, s, hs
  | .bool _ :: rest, path, i, above, s, hs | .num _ :: rest, path, i, above, s, hs
  | .str _ :: rest, path, i, above, s, hs | .arr _ :: rest, path, i, above, s, hs
  | .func _ :: rest, path, i, above, s, hs => by
    rw [placedSteps] at hs
    · obtain ⟨⟨j, below, hle, hpath⟩, habove⟩ := placedSteps_place rest path (i + 1) above s hs
      exact ⟨⟨j, below, Nat.le_of_succ_le hle, hpath⟩, habove⟩
    · rintro _ ⟨⟩
termination_by steps => sizeOf steps
decreasing_by
  all_goals first
    | exact Value.sizeOf_own_lt_step _ _ _
    | simp only [List.cons.sizeOf_spec]; omega

end

/-- The check finds no problems in some actions, at some depth. -/
def Walked (lang : ScriptLanguage) (actions : Value) : Prop :=
  ∃ depth n, (walkActions lang actions depth n).1 = []

/-- The items of checked actions are objects, and what their `if` actions nest is checked. -/
def WalkedSteps (lang : ScriptLanguage) (steps : List Value) : Prop :=
  ∀ step ∈ steps, ∃ fields, step = .obj fields ∧
    (isIf fields = true → Walked lang (Value.own fields "actions"))

theorem Walked.items {actions : Value} (h : Walked lang actions) :
    actions = .undefined ∨ ∃ items, actions = .arr items ∧ WalkedSteps lang items := by
  obtain ⟨depth, n, h⟩ := h
  unfold walkActions at h
  split at h
  · refine .inr ⟨_, rfl, ?_⟩
    intro step hstep
    obtain ⟨fields, heq, -, hnested⟩ := soundStep_of_walkSteps h step hstep
    exact ⟨fields, heq, fun hif => ⟨_, hnested (of_decide_eq_true hif)⟩⟩
  · exact .inl rfl
  · cases h

/-- Nothing happens under an action that does not execute. -/
theorem not_of_above {s : PlacedStep} {a : StepPath × List (String × Value)} (ha : a ∈ s.above)
    (hfails : ¬ HoldsAt lang context deadline w a.1 a.2) :
    ¬ s.Executes lang context deadline w ∧ ¬ s.Troubled lang context deadline w :=
  ⟨fun h => hfails (h.2 a ha), fun h => hfails (h.2.1 a ha)⟩

/-- Nothing happens from an action on that comes to its turn after the deadline. -/
theorem not_of_expired {steps : List Value} {path : StepPath} {i : ℕ}
    {above : List (StepPath × List (String × Value))}
    (hexpired : reached deadline (w.now (path ++ [i])) = true) {s : PlacedStep}
    (hs : s ∈ placedSteps steps path i above) :
    ¬ s.Executes lang context deadline w ∧ ¬ s.Troubled lang context deadline w := by
  obtain ⟨⟨j, below, hle, hpath⟩, -⟩ := placedSteps_place steps path i above s hs
  have hlate : reached deadline (w.now s.path) = true := by
    rw [hpath]
    exact reached_mono hexpired (w.ordered path i j below hle)
  constructor
  · intro h
    exact Bool.false_ne_true (h.1.1.symm.trans hlate)
  · intro h
    exact Bool.false_ne_true (h.1.symm.trans hlate)

section Turn

variable {here : StepPath} {fields : List (String × Value)}
  {above : List (StepPath × List (String × Value))} {nested : List PlacedStep}

/-- An action whose condition does not hold does nothing, and what is nested in it does not. -/
theorem means_of_not_holds (hnow : reached deadline (w.now here) = false)
    (habove : ∀ a ∈ above, HoldsAt lang context deadline w a.1 a.2)
    (hnested : ∀ s ∈ nested, (here, fields) ∈ s.above)
    (hverdict : stepVerdict lang context w here fields ≠ some true) :
    StepsOutcome.Means lang context deadline w
      ⟨[], (stepVerdict lang context w here fields).isNone, false⟩
      (⟨here, fields, above⟩ :: nested) := by
  have hholds : ¬ HoldsAt lang context deadline w here fields := fun h => hverdict h.2
  refine ⟨rfl, ?_, ?_⟩
  · rw [List.filter_eq_nil_iff.mpr]
    · rfl
    · intro s hs
      rw [decide_eq_true_eq]
      rcases List.mem_cons.mp hs with rfl | hs
      · exact fun h => hholds h.1
      · exact (not_of_above (hnested s hs) hholds).1
  · rw [Option.isNone_iff_eq_none]
    constructor
    · intro hnone
      exact ⟨_, List.mem_cons_self, hnow, habove, .inl hnone⟩
    · rintro ⟨s, hs, htrouble⟩
      rcases List.mem_cons.mp hs with rfl | hs
      · exact htrouble.2.2.resolve_right fun h => hverdict h.1
      · exact absurd htrouble (not_of_above (hnested s hs) hholds).2

/-- An `if` action executes, and what is nested in it runs. -/
theorem means_of_if {o : StepsOutcome} (hnow : reached deadline (w.now here) = false)
    (habove : ∀ a ∈ above, HoldsAt lang context deadline w a.1 a.2)
    (hverdict : stepVerdict lang context w here fields = some true) (hif : isIf fields = true)
    (h : o.Means lang context deadline w nested) :
    StepsOutcome.Means lang context deadline w ⟨here :: o.executed, o.scriptFailed, false⟩
      (⟨here, fields, above⟩ :: nested) := by
  refine ⟨rfl, ?_, ?_⟩
  · rw [List.filter_cons_of_pos, List.map_cons, h.executed]
    exact decide_eq_true ⟨⟨hnow, hverdict⟩, habove⟩
  · rw [h.failed]
    constructor
    · rintro ⟨s, hs, htrouble⟩
      exact ⟨s, List.mem_cons_of_mem _ hs, htrouble⟩
    · rintro ⟨s, hs, htrouble⟩
      rcases List.mem_cons.mp hs with rfl | hs
      · rcases htrouble.2.2 with hnone | ⟨-, hnot, -⟩
        · rw [hverdict] at hnone
          cases hnone
        · exact absurd (hif.symm.trans hnot) Bool.noConfusion
      · exact ⟨s, hs, htrouble⟩

/-- Another action executes, and may fail. -/
theorem means_of_not_if (hnow : reached deadline (w.now here) = false)
    (habove : ∀ a ∈ above, HoldsAt lang context deadline w a.1 a.2)
    (hverdict : stepVerdict lang context w here fields = some true) (hif : isIf fields = false) :
    StepsOutcome.Means lang context deadline w ⟨[here], w.fails here, false⟩
      [⟨here, fields, above⟩] := by
  refine ⟨rfl, ?_, ?_⟩
  · rw [List.filter_cons_of_pos]
    · rfl
    · exact decide_eq_true ⟨⟨hnow, hverdict⟩, habove⟩
  · constructor
    · intro hfails
      exact ⟨_, List.mem_singleton_self _, hnow, habove, .inr ⟨hverdict, hif, hfails⟩⟩
    · rintro ⟨s, hs, htrouble⟩
      obtain rfl := List.mem_singleton.mp hs
      rcases htrouble.2.2 with hnone | ⟨-, -, hfails⟩
      · rw [hverdict] at hnone
        cases hnone
      · exact hfails

end Turn

/-- What the actions of a checked list do. -/
theorem performSteps_means : (steps : List Value) → WalkedSteps lang steps →
    (path : StepPath) → (i : ℕ) → (above : List (StepPath × List (String × Value))) →
    (∀ a ∈ above, HoldsAt lang context deadline w a.1 a.2) →
    (performSteps lang context deadline w steps path i).Means lang context deadline w
      (placedSteps steps path i above)
  | [], _, _, _, _, _ => by
    rw [performSteps, placedSteps]
    exact .nothing fun s hs => (List.not_mem_nil hs).elim
  | step :: rest, hsteps, path, i, above, habove => by
    obtain ⟨fields, rfl, hnested⟩ := hsteps step List.mem_cons_self
    rw [performSteps]
    by_cases hexpired : reached deadline (w.now (path ++ [i])) = true
    · rw [if_pos hexpired]
      exact .nothing fun s hs => not_of_expired hexpired hs
    have hnow : reached deadline (w.now (path ++ [i])) = false :=
      Bool.eq_false_of_not_eq_true hexpired
    have hothers := performSteps_means rest (fun step hstep =>
      hsteps step (List.mem_cons_of_mem _ hstep)) path (i + 1) above habove
    rw [if_neg hexpired, placedSteps]
    refine StepsOutcome.Means.append ?_ hothers
    have hbelow : ∀ s ∈ (if isIf fields = true then
        placedActions (Value.own fields "actions") (path ++ [i]) ((path ++ [i], fields) :: above)
        else []), (path ++ [i], fields) ∈ s.above := by
      intro s hs
      split at hs
      · exact (placedActions_place _ _ _ s hs).2 _ List.mem_cons_self
      · cases hs
    cases hverdict : stepVerdict lang context w (path ++ [i]) fields with
    | none =>
      have hidle : stepVerdict lang context w (path ++ [i]) fields ≠ some true := by
        rw [hverdict]
        rintro ⟨⟩
      have hnone := means_of_not_holds hnow habove hbelow hidle
      rw [hverdict] at hnone
      exact hnone
    | some holds =>
      cases holds with
      | false =>
        have hidle : stepVerdict lang context w (path ++ [i]) fields ≠ some true := by
          rw [hverdict]
          rintro ⟨⟩
        have hfalse := means_of_not_holds hnow habove hbelow hidle
        rw [hverdict] at hfalse
        exact hfalse
      | true =>
        cases hif : isIf fields with
        | false => exact means_of_not_if hnow habove hverdict hif
        | true =>
          rcases (hnested hif).items with hnone | ⟨items, hitems, hwalked⟩
          · have hno := means_of_if hnow habove hverdict hif
              (StepsOutcome.Means.nothing fun s (hs : s ∈ []) => (List.not_mem_nil hs).elim)
            rw [hnone]
            simpa [placedActions, Value.truthy] using hno
          · have hrun := performSteps_means items hwalked (path ++ [i]) 0
              ((path ++ [i], fields) :: above)
              (List.forall_mem_cons.mpr ⟨⟨hnow, hverdict⟩, habove⟩)
            have hyes := means_of_if hnow habove hverdict hif hrun
            rw [hitems]
            simpa [performActions, placedActions, Value.truthy, hrun.settles] using hyes
termination_by steps => sizeOf steps
decreasing_by
  · simp only [List.cons.sizeOf_spec]
    omega
  · have hlt := Value.sizeOf_own_lt_step fields "actions" rest
    rw [hitems, Value.arr.sizeOf_spec] at hlt
    rw [‹step = Value.obj fields›]
    omega

end Actions

section Filters

variable {lang : ScriptLanguage} [CaseMapping] {context : ScriptContext} {moment : Moment}
  {fields : List (String × Value)}

theorem verdict_ne_none_of_readable (h : ReadableFilter lang context moment fields) :
    (matchesFilter lang context moment (.obj fields)).verdict ≠ none := by
  unfold ReadableFilter at h
  split at h <;> rename_i htype <;> simp only [matchesFilter, htype]
  · obtain ⟨hvalue, target, htarget, htext⟩ := h
    obtain ⟨value, hvalue⟩ := Option.isSome_iff_exists.mp hvalue
    obtain ⟨text, htext⟩ := Option.isSome_iff_exists.mp htext
    simp [htarget, htext, hvalue]
  · obtain ⟨target, htarget, hsome⟩ := h
    simp only [htarget]
    exact Option.isSome_iff_ne_none.mp hsome
  · obtain ⟨target, keyword, htarget, hvalue⟩ := h
    simp [htarget, hvalue]
  · split
    · split_ifs <;> rintro ⟨⟩
    · rename_i hother
      refine Option.isSome_iff_ne_none.mp (h.resolve_left ?_)
      rintro ⟨expression, hvalue, -⟩
      exact hother expression hvalue
  · rintro ⟨⟩

theorem readable_of_verdict (h : (matchesFilter lang context moment (.obj fields)).verdict =
    some true) : ReadableFilter lang context moment fields := by
  unfold ReadableFilter
  simp only [matchesFilter] at h
  split <;> rename_i htype <;> simp only [htype] at h
  · split at h
    · cases h
    · rename_i target htarget
      obtain ⟨text, htext, h⟩ := Option.bind_eq_some_iff.mp h
      obtain ⟨value, hvalue, -⟩ := Option.bind_eq_some_iff.mp h
      exact ⟨Option.isSome_iff_exists.mpr ⟨value, hvalue⟩, target, htarget,
        Option.isSome_iff_exists.mpr ⟨text, htext⟩⟩
  · split at h
    · cases h
    · rename_i target htarget
      exact ⟨target, htarget, Option.isSome_iff_exists.mpr ⟨true, h⟩⟩
  · split at h
    · exact ⟨_, _, ‹_›, ‹_›⟩
    · cases h
  · split at h
    · rename_i expression hvalue
      split_ifs at h with hallowed
      · cases hsandbox : moment.sandbox (Value.own fields "value") with
        | none =>
          rw [hsandbox] at h
          cases h
        | some holds => exact .inr (Option.isSome_iff_exists.mpr ⟨holds, hsandbox⟩)
      · exact .inl ⟨expression, hvalue, Bool.eq_false_of_not_eq_true hallowed⟩
    · exact .inr (Option.isSome_iff_exists.mpr ⟨true, h⟩)
  · trivial

variable {moments : ℕ → Moment}

theorem matchesEvery_ne_none {filters : List Value} {i : ℕ}
    (h : ReadableFrom lang context moments filters i) :
    (matchesEvery lang context moments filters i).1.verdict ≠ none := by
  induction filters generalizing i with
  | nil => rintro ⟨⟩
  | cons filter rest ih =>
    cases filter with
    | obj fields =>
      obtain ⟨hreadable, hrest⟩ := h
      have hsome := verdict_ne_none_of_readable hreadable
      simp only [matchesEvery]
      split
      · exact ih (hrest ‹_›)
      · exact hsome
    | _ => exact h.elim

/-- If all filters match, all were readable. -/
theorem readableFrom_of_verdict {filters : List Value} {i : ℕ}
    (hobj : ∀ filter ∈ filters, ∃ fields, filter = .obj fields)
    (h : (matchesEvery lang context moments filters i).1.verdict = some true) :
    ReadableFrom lang context moments filters i := by
  induction filters generalizing i with
  | nil => trivial
  | cons filter rest ih =>
    obtain ⟨fields, rfl⟩ := hobj filter List.mem_cons_self
    simp only [matchesEvery] at h
    split at h
    · rename_i htrue
      exact ⟨readable_of_verdict htrue, fun _ =>
        ih (fun filter hmem => hobj filter (List.mem_cons_of_mem _ hmem)) h⟩
    · rename_i hnot
      exact absurd h (hnot · )

theorem matchesFilters_ne_none {filters : Value} (h : ReadableList lang context moments filters) :
    (matchesFilters lang context moments filters 0).1.verdict ≠ none := by
  cases filters with
  | arr items => exact matchesEvery_ne_none h
  | undefined => rintro ⟨⟩
  | null => rintro ⟨⟩
  | str text =>
    have hempty : text = "" := h
    simp only [matchesFilters, if_pos hempty]
    rintro ⟨⟩
  | obj fields =>
    have hempty : strictEquals (Value.own fields "length") (.num 0) = true := h
    simp only [matchesFilters, if_pos hempty]
    rintro ⟨⟩
  | _ => exact h.elim

theorem readableList_of_verdict {filters : Value}
    (hobj : ∀ items, filters = .arr items → ∀ filter ∈ items, ∃ fields, filter = .obj fields)
    (h : (matchesFilters lang context moments filters 0).1.verdict = some true) :
    ReadableList lang context moments filters := by
  cases filters with
  | arr items => exact readableFrom_of_verdict (hobj items rfl) h
  | undefined => trivial
  | null => trivial
  | str text =>
    simp only [matchesFilters] at h
    split_ifs at h with hempty
    exact hempty
  | obj fields =>
    simp only [matchesFilters] at h
    split_ifs at h with hempty
    exact hempty
  | _ => cases h

end Filters

section Configs

variable {lang : ScriptLanguage} [CaseMapping] {config : List (String × Value)}
  {event : Workers.Event} {w : RunWorld}

/-- Filters that match are readable. -/
theorem readableFilters_of_verdict (haccepted : Accepted lang (.obj config))
    (h : filtersVerdict lang config event w = some true) :
    ReadableFilters lang config event w := by
  refine readableList_of_verdict ?_ h
  intro items hitems filter hmem
  obtain ⟨fields, heq, -⟩ := haccepted.filter hitems hmem
  exact ⟨fields, heq⟩

omit [CaseMapping] in
/-- The actions of an accepted config that has some. -/
theorem performActions_means (haccepted : Accepted lang (.obj config))
    (hactions : Value.own config "actions" ≠ .undefined) (context : ScriptContext)
    (deadline : Option JsNumber) :
    (performActions lang context deadline w (Value.own config "actions") []).Means lang context
      deadline w (placedActions (Value.own config "actions") [] []) := by
  have hwalked : Walked lang (Value.own config "actions") := ⟨0, 0, haccepted.parts.2⟩
  obtain ⟨items, hitems, hsteps⟩ := hwalked.items.resolve_left hactions
  rw [hitems, performActions, placedActions]
  exact performSteps_means items hsteps [] 0 [] fun _ h => (List.not_mem_nil h).elim

/-- A run that gets through is as it should be. -/
theorem runsAsMeant_of_runsThrough (haccepted : Accepted lang (.obj config))
    (h : RunsThrough lang config event w) :
    RunsAsMeant lang config event w (runOutcome lang config event w) := by
  obtain ⟨hreadable, hactions⟩ := h
  have hsome : filtersVerdict lang config event w ≠ none := matchesFilters_ne_none hreadable
  rw [runOutcome]
  cases hverdict : filtersVerdict lang config event w with
  | none => exact absurd hverdict hsome
  | some holds =>
    cases holds with
    | false =>
      have hquiet : ¬ Reported lang config event w := by
        rintro (hthrew | ⟨htrue, -⟩)
        · exact hthrew hreadable
        · rw [hverdict] at htrue
          cases htrue
      exact ⟨rfl, fun htrue => absurd (hverdict.symm.trans htrue) (by rintro ⟨⟩), fun _ => rfl,
        fun hreported => absurd hreported hquiet, fun _ => rfl⟩
    | true =>
      have hmeans := performActions_means (w := w) haccepted (hactions hverdict)
        (runContext config event) (runDeadline lang config w.start)
      simp only [hmeans.settles, Bool.false_eq_true, if_false]
      have hreported : Reported lang config event w ↔
          ((performActions lang (runContext config event) (runDeadline lang config w.start) w
            (Value.own config "actions") []).scriptFailed ||
            reached (runDeadline lang config w.start) w.finish) = true := by
        rw [Bool.or_eq_true, hmeans.failed, Reported]
        simp only [hreadable, hverdict, not_true_eq_false, false_or, true_and]
      refine ⟨rfl, fun _ => hmeans.executed, fun hfalse => ?_, fun h => ?_, fun h => ?_⟩
      · rw [hverdict] at hfalse
        cases hfalse
      · exact if_pos (hreported.mp h)
      · exact if_neg fun hfailed => h (hreported.mpr hfailed)

/-- A run is as it should be exactly when its filters are readable and it has the actions that it
    comes to. -/
theorem runsAsMeant_iff (haccepted : Accepted lang (.obj config)) :
    RunsAsMeant lang config event w (runOutcome lang config event w) ↔
      RunsThrough lang config event w := by
  constructor
  · intro h
    have hreadable : ReadableFilters lang config event w := by
      by_contra hthrew
      have hone := h.notifies (.inl hthrew)
      have hsettles := h.settles
      rw [runOutcome] at hone hsettles
      cases hverdict : filtersVerdict lang config event w with
      | none =>
        rw [hverdict] at hsettles
        cases hsettles
      | some holds =>
        cases holds with
        | false =>
          rw [hverdict] at hone
          cases hone
        | true => exact hthrew (readableFilters_of_verdict haccepted hverdict)
    refine ⟨hreadable, ?_⟩
    intro hverdict hnone
    have hsettles := h.settles
    rw [runOutcome, hverdict, hnone, performActions] at hsettles
    · cases hsettles
    · rintro _ ⟨⟩
    · rintro _ ⟨⟩
  · exact runsAsMeant_of_runsThrough haccepted

end Configs

section Examples

/-- A config that logs when a message contains a word. -/
def keywordConfig : List (String × Value) :=
  [("filters", .arr [.obj [("type", .str "keyword"), ("value", .str "hello")]]),
    ("actions", .arr [.obj [("type", .str "log")]])]

theorem accepted_keywordConfig : Accepted literalLanguage (.obj keywordConfig) := by
  have hfilters : checkFilters literalLanguage (Value.own keywordConfig "filters") = some [] := by
    decide
  have hsteps : Value.own keywordConfig "actions" = .arr [.obj [("type", .str "log")]] := rfl
  have htype : Value.own [("type", .str "log")] "type" = .str "log" := rfl
  have hparts : checkStepParts [("type", .str "log")] "log" = [] := by decide
  have hactions : (walkActions literalLanguage (Value.own keywordConfig "actions") 0 0).1 = [] := by
    simp [hsteps, walkActions, walkSteps, maxActions, htype, hparts, checkStepType]
  rw [Accepted, validateScriptConfig, hfilters, hactions]
  rfl

/-- A run in which no time passes. -/
def quickWorld : RunWorld where
  start := 0
  now _ := 0
  finish := 0
  filterMoment _ := ⟨[], fun _ => .undefined, false, fun _ => none⟩
  stepMoment _ := ⟨[], fun _ => .undefined, false, fun _ => none⟩
  fails _ := false
  ordered _ _ _ _ _ := le_refl 0
  ended _ := le_refl 0

theorem runsAsMeant_helloText :
    RunsAsMeant literalLanguage keywordConfig [("text", .str "hello")] quickWorld
      (runOutcome literalLanguage keywordConfig [("text", .str "hello")] quickWorld) := by
  refine (runsAsMeant_iff accepted_keywordConfig).mpr ⟨⟨⟨"hello", "hello", rfl, rfl⟩, ?_⟩, ?_⟩
  · exact fun _ => trivial
  · rintro _ ⟨⟩

/-- A message whose text is a number leaves the run with an exception. -/
theorem not_runsAsMeant_numberText :
    Accepted literalLanguage (.obj keywordConfig) ∧
      ¬ RunsAsMeant literalLanguage keywordConfig [("text", .num 5)] quickWorld
        (runOutcome literalLanguage keywordConfig [("text", .num 5)] quickWorld) := by
  refine ⟨accepted_keywordConfig, ?_⟩
  intro h
  have hsettles := h.settles
  have hthrows : filtersVerdict literalLanguage keywordConfig [("text", .num 5)] quickWorld = none :=
    rfl
  rw [runOutcome, hthrows] at hsettles
  cases hsettles

end Examples

end BotHive.Scripts
