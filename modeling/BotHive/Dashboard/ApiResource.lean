import Mathlib.Data.List.Nodup
import Mathlib.Order.Nat
import BotHive.Library.Machine

/-!
# Resources of the dashboard

A page loads a resource of the API when it is shown, when its filters change, on an interval and on
demand. Loads overlap, and their responses come back in any order. A load takes a number, and a
response is used only if no other load has been started since.

## Main definitions

- `ApiResource.step`: a load, a response, a failure, a change of options, data that the page sets
- `LatestLoad.step`: the same with one load at a time, which a new one cancels

## Main results

- `apiResource_refines`: what is shown is what one load at a time would show
- `apiResource_everywhere`: results are taken in the order of their loads, and `loading` ends
- `apiResource_latest`: the last load decides, whenever older responses come
-/

namespace BotHive.Dashboard

variable {α : Type}

/-- What a page shows of a resource. -/
structure ResourceView (α : Type) where
  data : Option α
  loading : Bool
  error : Option String
  /-- A load has succeeded. -/
  hasData : Bool

structure ResourceOptions where
  silentRefetch : Bool
  refetchLoading : Bool

namespace ResourceView

def initial : ResourceView α :=
  ⟨none, true, none, false⟩

def begin (view : ResourceView α) (options : ResourceOptions) : ResourceView α :=
  if options.refetchLoading || !view.hasData then { view with loading := true } else view

def succeed (view : ResourceView α) (result : α) : ResourceView α :=
  { view with data := some result, error := none, hasData := true, loading := false }

def fail (view : ResourceView α) (options : ResourceOptions) (message : String) : ResourceView α :=
  { view with
    error := if !options.silentRefetch || !view.hasData then some message else view.error
    loading := false }

end ResourceView

section Loads

structure ApiResource (α : Type) where
  view : ResourceView α
  options : ResourceOptions
  seq : ℕ
  /-- The numbers of the loads without a response. -/
  inFlight : List ℕ
  mounted : Bool
  /-- The results that were taken, with the numbers of their loads, for statements only. -/
  taken : List (ℕ × α)

inductive ResourceAction (α : Type) where
  | reload
  | resolved (seq : ℕ) (result : α)
  | rejected (seq : ℕ) (message : String)
  | setData (data : Option α)
  | setOptions (options : ResourceOptions)
  | unmount

namespace ApiResource

def start (options : ResourceOptions) : ApiResource α :=
  ⟨.initial, options, 0, [], true, []⟩

/-- A load gets its response. -/
def land (s : ApiResource α) (seq : ℕ) : ApiResource α :=
  { s with inFlight := s.inFlight.filter (· ≠ seq) }

def step (s : ApiResource α) : ResourceAction α → Option (ApiResource α)
  | .reload =>
    some { s with
      seq := s.seq + 1
      inFlight := s.inFlight ++ [s.seq + 1]
      view := s.view.begin s.options }
  | .resolved seq result =>
    if seq ∉ s.inFlight then none
    else if seq ≠ s.seq then some (s.land seq)
    else some { s.land seq with
      view := s.view.succeed result
      taken := s.taken ++ [(seq, result)] }
  | .rejected seq message =>
    if seq ∉ s.inFlight then none
    else if seq ≠ s.seq then some (s.land seq)
    else some { s.land seq with view := s.view.fail s.options message }
  | .setData data => some { s with view := { s.view with data } }
  | .setOptions options => some { s with options }
  | .unmount => some { s with seq := s.seq + 1, mounted := false }

/-- What holds in every state. -/
structure Sound (s : ApiResource α) : Prop where
  inFlight_le : ∀ n ∈ s.inFlight, n ≤ s.seq
  nodup : s.inFlight.Nodup
  ordered : (s.taken.map Prod.fst).Pairwise (· < ·)
  taken_le : ∀ n ∈ s.taken.map Prod.fst, n ≤ s.seq ∧ n ∉ s.inFlight
  loading : s.view.loading = true → s.mounted = true → s.seq = 0 ∨ s.seq ∈ s.inFlight

end ApiResource

end Loads

section Latest

/-- A resource with one load at a time. -/
structure LatestLoad (α : Type) where
  view : ResourceView α
  options : ResourceOptions
  pending : Bool

inductive LatestAction (α : Type) where
  /-- A load, which cancels the one under way. -/
  | load
  | succeed (result : α)
  | fail (message : String)
  | setData (data : Option α)
  | setOptions (options : ResourceOptions)
  | cancel

namespace LatestLoad

def start (options : ResourceOptions) : LatestLoad α :=
  ⟨.initial, options, false⟩

def step (s : LatestLoad α) : LatestAction α → Option (LatestLoad α)
  | .load => some { s with pending := true, view := s.view.begin s.options }
  | .succeed result =>
    if s.pending then some { s with pending := false, view := s.view.succeed result } else none
  | .fail message =>
    if s.pending then some { s with pending := false, view := s.view.fail s.options message } else none
  | .setData data => some { s with view := { s.view with data } }
  | .setOptions options => some { s with options }
  | .cancel => some { s with pending := false }

end LatestLoad

/-- The load with the last number is the one under way. -/
def ApiResource.toLatest (s : ApiResource α) : LatestLoad α :=
  ⟨s.view, s.options, decide (s.seq ∈ s.inFlight)⟩

end Latest

namespace ApiResource

variable {s s' : ApiResource α} {a : ResourceAction α}

theorem sound_start (options : ResourceOptions) : (start options : ApiResource α).Sound where
  inFlight_le := nofun
  nodup := .nil
  ordered := .nil
  taken_le := nofun
  loading _ _ := .inl rfl

/-- A response of a load that another one has followed. -/
theorem Sound.land (h : s.Sound) {seq : ℕ} (hother : seq ≠ s.seq) : (s.land seq).Sound where
  inFlight_le n hn := h.inFlight_le n (List.mem_filter.mp hn).1
  nodup := h.nodup.filter _
  ordered := h.ordered
  taken_le n hn := ⟨(h.taken_le n hn).1, fun hmem => (h.taken_le n hn).2 (List.mem_filter.mp hmem).1⟩
  loading hloading hmounted := (h.loading hloading hmounted).imp_right fun hmem =>
    List.mem_filter.mpr ⟨hmem, decide_eq_true hother.symm⟩

/-- A response that is used: its load is no longer in flight, and nothing is loading. -/
theorem Sound.used (h : s.Sound) {seq : ℕ} (hmem : seq ∈ s.inFlight) (hlast : seq = s.seq)
    (view : ResourceView α) (hview : view.loading = false) {results : List (ℕ × α)}
    (hresults : results = [] ∨ ∃ r, results = [(seq, r)]) :
    ({ s.land seq with view, taken := s.taken ++ results } : ApiResource α).Sound where
  inFlight_le n hn := h.inFlight_le n (List.mem_filter.mp hn).1
  nodup := h.nodup.filter _
  ordered := by
    show ((s.taken ++ results).map Prod.fst).Pairwise (· < ·)
    rcases hresults with rfl | ⟨r, rfl⟩
    · rw [List.append_nil]
      exact h.ordered
    · rw [List.map_append, List.pairwise_append]
      refine ⟨h.ordered, List.pairwise_singleton _ _, ?_⟩
      intro n hn m hm
      obtain rfl : m = seq := List.mem_singleton.mp hm
      obtain ⟨hle, hnot⟩ := h.taken_le n hn
      refine lt_of_le_of_ne (hlast ▸ hle) ?_
      rintro rfl
      exact hnot hmem
  taken_le n hn := by
    change n ∈ (s.taken ++ results).map Prod.fst at hn
    rw [List.map_append, List.mem_append] at hn
    have hgone : seq ∉ s.inFlight.filter (· ≠ seq) := by
      simp
    rcases hn with hn | hn
    · exact ⟨(h.taken_le n hn).1, fun hmem => (h.taken_le n hn).2 (List.mem_filter.mp hmem).1⟩
    · rcases hresults with rfl | ⟨r, rfl⟩
      · cases hn
      · obtain rfl : n = seq := List.mem_singleton.mp hn
        exact ⟨hlast.le, hgone⟩
  loading hloading := absurd (hview.symm.trans hloading) Bool.false_ne_true

theorem Sound.step (h : s.Sound) (hstep : s.step a = some s') : s'.Sound := by
  cases a with
  | reload =>
    obtain rfl := Option.some.inj hstep
    have hfresh : s.seq + 1 ∉ s.inFlight := fun hmem => by
      have hle := h.inFlight_le _ hmem
      omega
    refine ⟨fun n hn => ?_, ?_, h.ordered, fun n hn => ?_, fun _ _ => .inr (by simp)⟩
    · rcases List.mem_append.mp hn with hn | hn
      · exact (h.inFlight_le n hn).trans (Nat.le_succ _)
      · exact (List.mem_singleton.mp hn).le
    · show (s.inFlight ++ [s.seq + 1]).Nodup
      simp [List.nodup_append, h.nodup]
      rintro n hn rfl
      exact hfresh hn
    · obtain ⟨hle, hnot⟩ := h.taken_le n hn
      refine ⟨hle.trans (Nat.le_succ _), fun hmem => ?_⟩
      rcases List.mem_append.mp hmem with hmem | hmem
      · exact hnot hmem
      · have heq := List.mem_singleton.mp hmem
        omega
  | resolved seq result =>
    rw [ApiResource.step] at hstep
    split_ifs at hstep with hflight hlast
    all_goals
      obtain rfl := Option.some.inj hstep
    · exact h.land hlast
    · rw [not_not] at hlast
      exact h.used hflight hlast _ rfl (.inr ⟨result, rfl⟩)
  | rejected seq message =>
    rw [ApiResource.step] at hstep
    split_ifs at hstep with hflight hlast
    all_goals
      obtain rfl := Option.some.inj hstep
    · exact h.land hlast
    · rw [not_not] at hlast
      have hused := h.used hflight hlast (s.view.fail s.options message) rfl (.inl rfl)
      rw [List.append_nil] at hused
      exact hused
  | setData data =>
    obtain rfl := Option.some.inj hstep
    exact ⟨h.inFlight_le, h.nodup, h.ordered, h.taken_le, h.loading⟩
  | setOptions options =>
    obtain rfl := Option.some.inj hstep
    exact ⟨h.inFlight_le, h.nodup, h.ordered, h.taken_le, h.loading⟩
  | unmount =>
    obtain rfl := Option.some.inj hstep
    exact ⟨fun n hn => (h.inFlight_le n hn).trans (Nat.le_succ _), h.nodup, h.ordered,
      fun n hn => ⟨(h.taken_le n hn).1.trans (Nat.le_succ _), (h.taken_le n hn).2⟩, nofun⟩

section Refinement

/-- A step as a step of the resource with one load at a time, or none. -/
theorem Sound.simulated (h : s.Sound) (hstep : s.step a = some s') :
    ∃ bs, Machine.exec LatestLoad.step s.toLatest bs = some s'.toLatest := by
  have hland {seq : ℕ} (hother : seq ≠ s.seq) : (s.land seq).toLatest = s.toLatest := by
    have hmem : s.seq ∈ (s.land seq).inFlight ↔ s.seq ∈ s.inFlight := by
      simp [ApiResource.land, hother.symm]
    exact congrArg (LatestLoad.mk s.view s.options) (decide_eq_decide.mpr hmem)
  have hused {view : ResourceView α} {taken : List (ℕ × α)} :
      ({ s.land s.seq with view, taken } : ApiResource α).toLatest =
        ⟨view, s.options, false⟩ := by
    have hgone : s.seq ∉ (s.land s.seq).inFlight := by
      simp [ApiResource.land]
    exact congrArg (LatestLoad.mk view s.options) (decide_eq_false hgone)
  have hfresh : s.seq + 1 ∉ s.inFlight := fun hmem => by
    have hle := h.inFlight_le _ hmem
    omega
  cases a with
  | reload =>
    obtain rfl := Option.some.inj hstep
    refine ⟨[.load], ?_⟩
    simp [LatestLoad.step, toLatest]
  | resolved seq result =>
    rw [ApiResource.step] at hstep
    split_ifs at hstep with hflight hlast
    all_goals
      obtain rfl := Option.some.inj hstep
    · exact ⟨[], congrArg some (hland hlast).symm⟩
    · obtain rfl := not_not.mp hlast
      refine ⟨[.succeed result], ?_⟩
      rw [hused]
      simp [LatestLoad.step, toLatest, hflight]
  | rejected seq message =>
    rw [ApiResource.step] at hstep
    split_ifs at hstep with hflight hlast
    all_goals
      obtain rfl := Option.some.inj hstep
    · exact ⟨[], congrArg some (hland hlast).symm⟩
    · obtain rfl := not_not.mp hlast
      refine ⟨[.fail message], ?_⟩
      rw [hused]
      simp [LatestLoad.step, toLatest, hflight]
  | setData data =>
    obtain rfl := Option.some.inj hstep
    exact ⟨[.setData data], rfl⟩
  | setOptions options =>
    obtain rfl := Option.some.inj hstep
    exact ⟨[.setOptions options], rfl⟩
  | unmount =>
    obtain rfl := Option.some.inj hstep
    refine ⟨[.cancel], ?_⟩
    simp [LatestLoad.step, toLatest, hfresh]

end Refinement

section LastLoad

/-- A response or a change of options. -/
def IsResponse : ResourceAction α → Prop
  | .resolved _ _ | .rejected _ _ | .setOptions _ => True
  | .reload | .setData _ | .unmount => False

/-- Responses start no load; those of other loads than the last change nothing that is shown. -/
theorem response_cases (ha : IsResponse a) (hstep : s.step a = some s') :
    s'.seq = s.seq ∧
      (s'.view = s.view ∧ (s.seq ∈ s'.inFlight ↔ s.seq ∈ s.inFlight) ∧
          (∀ result, a ≠ .resolved s.seq result) ∨
        s.seq ∈ s.inFlight ∧ s.seq ∉ s'.inFlight ∧
          ∀ result, a = .resolved s.seq result → s'.view = s.view.succeed result) := by
  have hkept {seq : ℕ} (hother : seq ≠ s.seq) : s.seq ∈ (s.land seq).inFlight ↔ s.seq ∈ s.inFlight := by
    simp [land, hother.symm]
  have hgone : s.seq ∉ (s.land s.seq).inFlight := by
    simp [land]
  cases a with
  | resolved seq result =>
    rw [ApiResource.step] at hstep
    split_ifs at hstep with hflight hlast
    all_goals
      obtain rfl := Option.some.inj hstep
    · refine ⟨rfl, .inl ⟨rfl, hkept hlast, ?_⟩⟩
      rintro _ ⟨⟩
      exact hlast rfl
    · obtain rfl := not_not.mp hlast
      refine ⟨rfl, .inr ⟨hflight, hgone, ?_⟩⟩
      rintro _ ⟨⟩
      rfl
  | rejected seq message =>
    rw [ApiResource.step] at hstep
    split_ifs at hstep with hflight hlast
    all_goals
      obtain rfl := Option.some.inj hstep
    · exact ⟨rfl, .inl ⟨rfl, hkept hlast, nofun⟩⟩
    · obtain rfl := not_not.mp hlast
      exact ⟨rfl, .inr ⟨hflight, hgone, nofun⟩⟩
  | setOptions options =>
    obtain rfl := Option.some.inj hstep
    exact ⟨rfl, .inl ⟨rfl, Iff.rfl, nofun⟩⟩
  | reload | setData | unmount => exact ha.elim

variable {as : List (ResourceAction α)}

/-- Once the last load has its response, there is no other, and nothing that is shown changes. -/
theorem view_of_landed (has : ∀ a ∈ as, IsResponse a) (hexec : Machine.exec step s as = some s')
    (hlanded : s.seq ∉ s.inFlight) :
    s'.view = s.view ∧ ∀ result, .resolved s.seq result ∉ as := by
  induction as generalizing s with
  | nil =>
    obtain rfl : s = s' := Option.some.inj hexec
    exact ⟨rfl, fun _ => List.not_mem_nil⟩
  | cons a rest ih =>
    obtain ⟨ha, hrest⟩ := List.forall_mem_cons.mp has
    obtain ⟨m, hm, hexec⟩ := Option.bind_eq_some_iff.mp hexec
    obtain ⟨hseq, ⟨hview, hmem, hother⟩ | ⟨hflight, -⟩⟩ := response_cases ha hm
    · obtain ⟨hshown, hnone⟩ := ih hrest hexec (by rw [hseq, hmem]; exact hlanded)
      refine ⟨hshown.trans hview, fun result hmem => ?_⟩
      rcases List.mem_cons.mp hmem with heq | hmem
      · exact hother result heq.symm
      · exact hnone result (hseq ▸ hmem)
    · exact absurd hflight hlanded

/-- A result of the last load among responses is what is shown in the end. -/
theorem view_of_resolved {result : α} (has : ∀ a ∈ as, IsResponse a)
    (hexec : Machine.exec step s as = some s') (hresult : .resolved s.seq result ∈ as) :
    s'.view.data = some result ∧ s'.view.loading = false ∧ s'.view.error = none := by
  induction as generalizing s with
  | nil => cases hresult
  | cons a rest ih =>
    obtain ⟨ha, hrest⟩ := List.forall_mem_cons.mp has
    obtain ⟨m, hm, hexec⟩ := Option.bind_eq_some_iff.mp hexec
    obtain ⟨hseq, ⟨-, -, hother⟩ | ⟨-, hgone, hview⟩⟩ := response_cases ha hm
    · rcases List.mem_cons.mp hresult with rfl | hresult
      · exact absurd rfl (hother result)
      · exact ih hrest hexec (hseq ▸ hresult)
    · obtain ⟨hshown, hnone⟩ := view_of_landed hrest hexec (by rw [hseq]; exact hgone)
      rcases List.mem_cons.mp hresult with rfl | hresult
      · rw [hshown, hview result rfl]
        exact ⟨rfl, rfl, rfl⟩
      · exact absurd (hseq ▸ hresult) (hnone result)

end LastLoad

end ApiResource

/-- Two loads whose responses come in the wrong order. -/
def overlap : List (ResourceAction String) :=
  [.reload, .reload, .resolved 2 "new", .resolved 1 "old"]

/-- In every state results have been taken in the order of their loads, at most one of each, and a
    page that is shown is loading only while its last load has no response. -/
theorem apiResource_everywhere (options : ResourceOptions) (as : List (ResourceAction α)) :
    Machine.Everywhere ApiResource.step
      (fun s => (s.taken.map Prod.fst).Pairwise (· < ·) ∧
        (s.view.loading = true → s.mounted = true → s.seq = 0 ∨ s.seq ∈ s.inFlight))
      (.start options) as :=
  Machine.everywhere_of_invariant ApiResource.Sound _
    (fun _ _ _ h _ hstep => h.step hstep) (fun _ h => ⟨h.ordered, h.loading⟩)
    (ApiResource.sound_start options) (Machine.along_true _ as)

/-- Whatever happened before, when the last load succeeds its result is shown in the end, without an
    error and not loading, whenever the responses of older loads come. -/
theorem apiResource_latest {s t : ApiResource α} {as : List (ResourceAction α)} {result : α}
    (has : ∀ a ∈ as, ApiResource.IsResponse a)
    (hexec : Machine.exec ApiResource.step s (.reload :: as) = some t)
    (hresult : .resolved (s.seq + 1) result ∈ as) :
    t.view.data = some result ∧ t.view.loading = false ∧ t.view.error = none := by
  obtain ⟨m, hm, hexec⟩ := Option.bind_eq_some_iff.mp hexec
  obtain rfl := Option.some.inj hm
  exact ApiResource.view_of_resolved has hexec hresult

theorem apiResource_latest_overlap :
    (⟨some "new", false, none, true⟩ : ResourceView String).data = some "new" ∧
      (⟨some "new", false, none, true⟩ : ResourceView String).loading = false ∧
      (⟨some "new", false, none, true⟩ : ResourceView String).error = none :=
  @apiResource_latest String ⟨.initial, ⟨true, false⟩, 1, [1], true, []⟩
    ⟨⟨some "new", false, none, true⟩, ⟨true, false⟩, 2, [], true, [(2, "new")]⟩
    [.resolved 2 "new", .resolved 1 "old"] "new" (by simp [ApiResource.IsResponse]) rfl
    List.mem_cons_self

end BotHive.Dashboard
