import Mathlib.Data.List.Basic
import Mathlib.Data.List.Nodup
import Mathlib.Tactic.Common

/-!
# Importing records into a table

A record that is imported looks for the first row of the table that it fits. The row it finds is
written; without one a row is added. Records that are imported one after another leave a table
as it was exactly if each of them finds a row, and the last one that finds a row writes what
the row already holds.

## Main definitions

- `Upsert.run`, `Upsert.runAll`: one record, and records one after another
- `Upsert.runEach`: records that may be refused
- `Upsert.Lawful`: writing keeps the key of a row and what fits it, and overwrites what other
  records have written

## Main results

- `Upsert.runAll_of_found`: what records do that all find a row
- `Upsert.runAll_eq_self_iff`, `Upsert.runAll_map_eq_self_iff`: when a table stays as it is
- `Upsert.runEach_eq_ok_iff`: an import that refuses no record
-/

/-- How one record goes into a table of rows. -/
structure Upsert (R : Type*) where
  fits : R → Bool
  write : R → R
  /-- The row that is added to a table without one that fits. -/
  make : List R → R

namespace Upsert

variable {R K E ε : Type*} [DecidableEq K] (key : R → K)

/-- With distinct keys, a key leads to its row. -/
theorem find?_key {rows : List R} (hnodup : (rows.map key).Nodup) {r : R} (hr : r ∈ rows) :
    rows.find? (fun x => decide (key x = key r)) = some r := by
  have hsome : (rows.find? fun x => decide (key x = key r)).isSome := by
    rw [List.find?_isSome]
    exact ⟨r, hr, decide_eq_true rfl⟩
  obtain ⟨x, hx⟩ := Option.isSome_iff_exists.mp hsome
  have hkey : key x = key r := by
    simpa using List.find?_some hx
  rw [hx, List.inj_on_of_nodup_map hnodup (List.mem_of_find?_eq_some hx) hr hkey]

/-- The key of the row that a record finds. -/
def target (u : Upsert R) (rows : List R) : Option K :=
  (rows.find? u.fits).map key

/-- Write the row with a key. -/
def writeAt (u : Upsert R) (k : K) (r : R) : R :=
  if key r = k then u.write r else r

/-- The table, the key of the row, and whether it was added. -/
def run (u : Upsert R) (rows : List R) : List R × K × Bool :=
  match u.target key rows with
  | some k => (rows.map (u.writeAt key k), k, false)
  | none => (rows ++ [u.make rows], key (u.make rows), true)

def runAll : List (Upsert R) → List R → List R × List (K × Bool)
  | [], rows => (rows, [])
  | u :: rest, rows =>
    let (rows, ref) := u.run key rows
    let (rows, refs) := runAll rest rows
    (rows, ref :: refs)

/-- Records that may be refused, with which the import as a whole is. -/
def runEach (op : E → Except ε (Upsert R)) : List E → List R → Except ε (List R × List (K × Bool))
  | [], rows => .ok (rows, [])
  | e :: rest, rows =>
    match op e with
    | .error x => .error x
    | .ok u =>
      let (rows, ref) := u.run key rows
      match runEach op rest rows with
      | .error x => .error x
      | .ok (rows, refs) => .ok (rows, ref :: refs)

/-- The last item of a list whose target is a key. -/
def lastInto (target : E → Option K) (es : List E) (k : K) : Option E :=
  (es.filter fun e => decide (target e = some k)).getLast?

/-- The last record that finds the row with a key. -/
def lastFor (us : List (Upsert R)) (rows : List R) (k : K) : Option (Upsert R) :=
  lastInto (fun u => u.target key rows) us k

/-- What a row holds after all records. -/
def settle (us : List (Upsert R)) (rows : List R) (r : R) : R :=
  match lastFor key us rows (key r) with
  | none => r
  | some u => u.write r

structure Lawful (us : List (Upsert R)) : Prop where
  key_write : ∀ u ∈ us, ∀ r, key (u.write r) = key r
  fits_write : ∀ u ∈ us, ∀ v ∈ us, ∀ r, v.fits (u.write r) = v.fits r
  write_write : ∀ u ∈ us, ∀ v ∈ us, ∀ r, v.write (u.write r) = v.write r

variable {key} {u v : Upsert R} {us rest : List (Upsert R)} {rows : List R} {k : K} {r : R}

omit [DecidableEq K] in
theorem Lawful.of_cons (h : Lawful key (u :: rest)) : Lawful key rest where
  key_write v hv := h.key_write v (List.mem_cons_of_mem u hv)
  fits_write v hv w hw := h.fits_write v (List.mem_cons_of_mem u hv) w (List.mem_cons_of_mem u hw)
  write_write v hv w hw :=
    h.write_write v (List.mem_cons_of_mem u hv) w (List.mem_cons_of_mem u hw)

theorem key_writeAt (h : ∀ r, key (u.write r) = key r) : key (u.writeAt key k r) = key r := by
  rw [writeAt]
  split
  · exact h r
  · rfl

/-- Writing a row does not change which rows records find. -/
theorem target_map_writeAt (hkey : ∀ r, key (u.write r) = key r)
    (hfits : ∀ r, v.fits (u.write r) = v.fits r) :
    v.target key (rows.map (u.writeAt key k)) = v.target key rows := by
  have hfits' : ∀ r, v.fits (u.writeAt key k r) = v.fits r := by
    intro r
    rw [writeAt]
    split
    · exact hfits r
    · rfl
  have hcomp : (v.fits ∘ u.writeAt key k) = v.fits := funext hfits'
  rw [target, target, List.find?_map, hcomp, Option.map_map]
  congr 1
  funext r
  exact key_writeAt hkey

theorem run_of_found (h : u.target key rows = some k) :
    u.run key rows = (rows.map (u.writeAt key k), k, false) := by
  rw [run, h]

/-- No record removes a row. -/
theorem length_run (key : R → K) (u : Upsert R) (rows : List R) :
    (u.run key rows).1.length =
      rows.length + if (u.target key rows).isSome then 0 else 1 := by
  rw [run]
  cases u.target key rows with
  | none => exact List.length_append
  | some k => exact List.length_map _

theorem runAll_cons :
    runAll key (u :: rest) rows =
      ((runAll key rest (u.run key rows).1).1,
        (u.run key rows).2 :: (runAll key rest (u.run key rows).1).2) :=
  rfl

theorem length_le_runAll (key : R → K) (us : List (Upsert R)) (rows : List R) :
    rows.length ≤ (runAll key us rows).1.length := by
  induction us generalizing rows with
  | nil => exact Nat.le_refl _
  | cons u rest ih =>
    have hrun := length_run key u rows
    have hrest := ih (u.run key rows).1
    rw [runAll_cons]
    dsimp only
    omega

/-- The last of the records behind the first one, or the first. -/
theorem lastFor_cons :
    lastFor key (u :: rest) rows k =
      (lastFor key rest rows k).or (if u.target key rows = some k then some u else none) := by
  rw [lastFor, lastInto, List.filter_cons, lastFor, lastInto]
  by_cases hu : u.target key rows = some k
  · rw [if_pos (decide_eq_true hu), if_pos hu, List.getLast?_cons]
    cases (rest.filter fun u => decide (u.target key rows = some k)).getLast? <;> rfl
  · rw [if_neg (by simpa using hu), if_neg hu, Option.or_none]

theorem settle_cons (h : Lawful key (u :: rest)) (hk : u.target key rows = some k) (r : R) :
    settle key rest (rows.map (u.writeAt key k)) (u.writeAt key k r) =
      settle key (u :: rest) rows r := by
  have hu : u ∈ u :: rest := List.mem_cons_self
  have hlast : lastFor key rest (rows.map (u.writeAt key k)) (key r) =
      lastFor key rest rows (key r) := by
    rw [lastFor, lastFor, lastInto, lastInto]
    congr 1
    refine List.filter_congr fun v hv => ?_
    rw [target_map_writeAt (h.key_write u hu)
      (h.fits_write u hu v (List.mem_cons_of_mem u hv))]
  rw [settle, key_writeAt (h.key_write u hu), hlast, settle, lastFor_cons, hk]
  cases hrest : lastFor key rest rows (key r) with
  | none =>
    rw [Option.none_or]
    by_cases hr : key r = k
    · rw [if_pos (congrArg some hr.symm), writeAt, if_pos hr]
    · rw [if_neg fun heq => hr (Option.some.inj heq).symm, writeAt, if_neg hr]
  | some v =>
    have hv : v ∈ rest := (List.mem_filter.mp (List.mem_of_getLast? hrest)).1
    rw [Option.some_or, writeAt]
    dsimp only
    by_cases hr : key r = k
    · rw [if_pos hr]
      exact h.write_write u hu v (List.mem_cons_of_mem u hv) r
    · rw [if_neg hr]

/-- Records that all find a row: the last one of each row counts. -/
theorem runAll_of_found (h : Lawful key us) (hfound : ∀ u ∈ us, (u.target key rows).isSome) :
    (runAll key us rows).1 = rows.map (settle key us rows) ∧
      (runAll key us rows).2.map (fun ref => some ref.1) = us.map fun u => u.target key rows := by
  induction us generalizing rows with
  | nil => exact ⟨(List.map_id rows).symm, rfl⟩
  | cons u rest ih =>
    obtain ⟨k, hk⟩ := Option.isSome_iff_exists.mp (hfound u List.mem_cons_self)
    have htarget : ∀ v ∈ rest,
        v.target key (rows.map (u.writeAt key k)) = v.target key rows := fun v hv =>
      target_map_writeAt (h.key_write u List.mem_cons_self)
        (h.fits_write u List.mem_cons_self v (List.mem_cons_of_mem u hv))
    have hrest : ∀ v ∈ rest, (v.target key (rows.map (u.writeAt key k))).isSome := by
      intro v hv
      rw [htarget v hv]
      exact hfound v (List.mem_cons_of_mem u hv)
    obtain ⟨hrows, hrefs⟩ := ih h.of_cons hrest
    rw [runAll_cons, run_of_found hk]
    constructor
    · rw [hrows, List.map_map]
      exact List.map_congr_left fun r _ => settle_cons h hk r
    · rw [List.map_cons, hrefs, List.map_cons, hk, List.map_congr_left htarget]

/-- An import that adds no row has found a row for each record. -/
theorem found_of_length_eq (h : Lawful key us)
    (hlength : (runAll key us rows).1.length = rows.length) :
    ∀ u ∈ us, (u.target key rows).isSome := by
  induction us generalizing rows with
  | nil => exact nofun
  | cons u rest ih =>
    have hrun := length_run key u rows
    have hle := length_le_runAll key rest (u.run key rows).1
    rw [runAll_cons] at hlength
    dsimp only at hlength
    have hu : (u.target key rows).isSome := by
      by_contra hnone
      rw [if_neg hnone] at hrun
      omega
    obtain ⟨k, hk⟩ := Option.isSome_iff_exists.mp hu
    rw [run_of_found hk] at hlength
    have hrest : ∀ v ∈ rest, (v.target key (rows.map (u.writeAt key k))).isSome :=
      ih h.of_cons (hlength.trans (List.length_map _).symm)
    intro v hv
    rcases List.mem_cons.mp hv with rfl | hv
    · exact hu
    · have hv' := hrest v hv
      rwa [target_map_writeAt (h.key_write u List.mem_cons_self)
        (h.fits_write u List.mem_cons_self v (List.mem_cons_of_mem u hv))] at hv'

/-- **Import**: a table stays as it is exactly if every record finds a row, and the last one
    that finds a row writes what the row holds. -/
theorem runAll_eq_self_iff (h : Lawful key us) :
    (runAll key us rows).1 = rows ↔
      (∀ u ∈ us, (u.target key rows).isSome) ∧
        ∀ r ∈ rows, ∀ u, lastFor key us rows (key r) = some u → u.write r = r := by
  constructor
  · intro heq
    have hfound := found_of_length_eq h (congrArg List.length heq)
    refine ⟨hfound, fun r hr u hu => ?_⟩
    have hmap := (runAll_of_found h hfound).1.symm.trans (heq.trans (List.map_id rows).symm)
    have hr' := List.map_inj_left.mp hmap r hr
    rwa [settle, hu] at hr'
  · rintro ⟨hfound, hlast⟩
    rw [(runAll_of_found h hfound).1]
    refine (List.map_congr_left fun r hr => ?_).trans (List.map_id rows)
    rw [settle]
    cases hu : lastFor key us rows (key r) with
    | none => rfl
    | some u => exact hlast r hr u hu

section Items

variable {op : E → Upsert R} {target : E → Option K} {es : List E}

/-- The last of records that are made of the items of a list. -/
theorem lastFor_map (htarget : ∀ e ∈ es, (op e).target key rows = target e) (k : K) :
    lastFor key (es.map op) rows k = (lastInto target es k).map op := by
  rw [lastFor, lastInto, lastInto, List.filter_map, List.getLast?_map]
  congr 2
  refine List.filter_congr fun e he => ?_
  rw [Function.comp_apply, htarget e he]

/-- The import of the items of a list, when it is known which rows they find. -/
theorem runAll_map_eq_self_iff (h : Lawful key (es.map op))
    (htarget : ∀ e ∈ es, (op e).target key rows = target e) :
    (runAll key (es.map op) rows).1 = rows ↔
      (∀ e ∈ es, (target e).isSome) ∧
        ∀ r ∈ rows, ∀ e, lastInto target es (key r) = some e → (op e).write r = r := by
  rw [runAll_eq_self_iff h]
  refine and_congr ?_ ?_
  · constructor
    · intro hfound e he
      rw [← htarget e he]
      exact hfound (op e) (List.mem_map_of_mem he)
    · intro hfound u hu
      obtain ⟨e, he, rfl⟩ := List.mem_map.mp hu
      rw [htarget e he]
      exact hfound e he
  · refine forall₂_congr fun r _ => ?_
    rw [lastFor_map htarget]
    constructor
    · intro hlast e he
      exact hlast (op e) (congrArg (Option.map op) he)
    · intro hlast u hu
      obtain ⟨e, he, rfl⟩ := Option.map_eq_some_iff.mp hu
      exact hlast e he

theorem refs_runAll_map (h : Lawful key (es.map op))
    (htarget : ∀ e ∈ es, (op e).target key rows = target e)
    (hfound : ∀ e ∈ es, (target e).isSome) :
    (runAll key (es.map op) rows).2.map (fun ref => some ref.1) = es.map target := by
  have hall : ∀ u ∈ es.map op, (u.target key rows).isSome := by
    intro u hu
    obtain ⟨e, he, rfl⟩ := List.mem_map.mp hu
    rw [htarget e he]
    exact hfound e he
  rw [(runAll_of_found h hall).2, List.map_map]
  exact List.map_congr_left htarget

end Items

theorem runEach_map {E' : Type*} (op : E → Except ε (Upsert R)) (f : E' → E) (es : List E')
    (rows : List R) :
    runEach key op (es.map f) rows = runEach key (fun e => op (f e)) es rows := by
  induction es generalizing rows with
  | nil => rfl
  | cons e rest ih =>
    rw [List.map_cons, runEach, runEach]
    cases op (f e) with
    | error _ => rfl
    | ok u =>
      dsimp only
      rw [ih]

/-- An import of records of which it is known which ones are refused. -/
theorem runEach_eq_ok_iff {op : E → Except ε (Upsert R)} {P : E → Prop} {g : E → Upsert R}
    {es : List E} (h : ∀ e ∈ es, ∀ u, op e = .ok u ↔ P e ∧ u = g e)
    {x : List R × List (K × Bool)} :
    runEach key op es rows = .ok x ↔ (∀ e ∈ es, P e) ∧ x = runAll key (es.map g) rows := by
  induction es generalizing rows x with
  | nil =>
    constructor
    · rintro ⟨⟩
      exact ⟨nofun, rfl⟩
    · rintro ⟨-, rfl⟩
      rfl
  | cons e rest ih =>
    have hrest : ∀ rows x, runEach key op rest rows = .ok x ↔
        (∀ e ∈ rest, P e) ∧ x = runAll key (rest.map g) rows :=
      fun _ _ => ih fun e' he => h e' (List.mem_cons_of_mem e he)
    rw [runEach, List.map_cons, runAll_cons]
    constructor
    · intro hok
      cases hop : op e with
      | error _ =>
        rw [hop] at hok
        cases hok
      | ok u =>
        obtain ⟨hP, rfl⟩ := (h e List.mem_cons_self u).mp hop
        rw [hop] at hok
        dsimp only at hok
        cases hrun : runEach key op rest ((g e).run key rows).1 with
        | error _ =>
          rw [hrun] at hok
          cases hok
        | ok y =>
          obtain ⟨hall, rfl⟩ := (hrest _ y).mp hrun
          rw [hrun] at hok
          exact ⟨List.forall_mem_cons.mpr ⟨hP, hall⟩, (Except.ok.inj hok).symm⟩
    · rintro ⟨hall, rfl⟩
      obtain ⟨hP, hall⟩ := List.forall_mem_cons.mp hall
      rw [(h e List.mem_cons_self (g e)).mpr ⟨hP, rfl⟩]
      dsimp only
      rw [(hrest ((g e).run key rows).1 _).mpr ⟨hall, rfl⟩]

end Upsert
