import SliceRecovery.Proofs.Storing

/-!
# SliceRecovery.Proofs.AppendOnly -- a history is a log of its runs

Runs and details are written to a store that was opened where there was none, in any order, except
that details are written only for runs that are there. What the store answers afterwards is said
without its tables, by the writes alone: `Reflects`. The proof goes through the tables, about which
`Kept` says as much: each write keeps it, and so all of them do, by induction on what is orderly.

Numbers ascend because each is one more than the last that was given. A number therefore names one
record, and the last record that fits is the one with the greatest number.
-/

namespace SliceRecovery

/-! ## Writes -/

/-- A request that writes. -/
inductive Writing
  | run (r : RunRecord)
  | details (id : Int) (result : RunResult)

namespace Writing

/-- The record that is written. -/
def record? : Writing → Option RunRecord
  | run r => some r
  | details _ _ => none

/-- The result whose details are written for a run. -/
def resultFor? (id : Int) : Writing → Option RunResult
  | run _ => none
  | details other result => if other = id then some result else none

/-- The records among writes, in order. -/
def records (ws : List Writing) : List RunRecord := ws.filterMap record?

/-- The results that were written for a run, in order. -/
def resultsFor (id : Int) (ws : List Writing) : List RunResult := ws.filterMap (resultFor? id)

variable {ws : List Writing} {id other : Int} {r : RunRecord} {result : RunResult}

theorem records_run : records (ws ++ [run r]) = records ws ++ [r] := List.filterMap_append

theorem records_details : records (ws ++ [details id result]) = records ws :=
  List.filterMap_append.trans (List.append_nil _)

theorem resultsFor_run : resultsFor id (ws ++ [run r]) = resultsFor id ws :=
  List.filterMap_append.trans (List.append_nil _)

theorem resultsFor_details :
    resultsFor id (ws ++ [details other result]) =
      if id = other then resultsFor id ws ++ [result] else resultsFor id ws := by
  unfold resultsFor
  rw [List.filterMap_append]
  by_cases h : id = other
  · subst h
    simp [resultFor?]
  · simp [resultFor?, h, Ne.symm h]

end Writing

open Writing (records resultsFor)

namespace Store

/-- A store that was opened where there was none. -/
def fresh : Store := (migrate {}).2

/-- Write to a store. The number that a run is given is added to those given before. -/
def write (p : List Int × Store) : Writing → Except StoreError (List Int × Store)
  | .run r => do
    let (id, s) ← p.2.insertRun r
    return (p.1 ++ [id], s)
  | .details id result => do
    let s ← p.2.insertResult id result
    return (p.1, s)

/-- Write to a new store, one after the other. -/
def writeAll (ws : List Writing) : Except StoreError (List Int × Store) :=
  ws.foldlM write ([], fresh)

/-- Details are written only for runs that are there by then. -/
inductive Orderly : List Writing → Prop
  | nil : Orderly []
  | run {ws : List Writing} (r : RunRecord) : Orderly ws → Orderly (ws ++ [.run r])
  | details {ws : List Writing} {ids : List Int} {s : Store} {id : Int} (result : RunResult) :
      Orderly ws → writeAll ws = .ok (ids, s) → id ∈ ids → Orderly (ws ++ [.details id result])

variable {ws : List Writing} {w : Writing} {ids : List Int} {s s' : Store} {t : Tables} {id : Int}

/-! ## The tables after writes -/

/-- What writes that gave these numbers leave in the tables. -/
structure Kept (ws : List Writing) (ids : List Int) (t : Tables) : Prop where
  length_eq : ids.length = (records ws).length
  ascending : ids.Pairwise (· < ·)
  sound : t.Sound
  rows_eq : t.runs.rows = (ids.zip (records ws)).map fun p => .ofRecord p.1 p.2
  slices_eq : ∀ id, DetailTable.ofRun t.slices id = DetailTable.putRows SliceRow.pointerAddress
    OrderedMap.empty ((resultsFor id ws).flatMap RunResult.sliceRows)
  resized_eq : ∀ id, DetailTable.ofRun t.resized id = DetailTable.putRows ResizeRow.address
    OrderedMap.empty ((resultsFor id ws).flatMap RunResult.resizeRows)
  rejections_eq : ∀ id, DetailTable.ofRun t.rejections id = DetailTable.putRows RejectionRow.address
    OrderedMap.empty ((resultsFor id ws).flatMap RunResult.rejectionRows)

namespace Kept

theorem exists_row (h : Kept ws ids t) (hid : id ∈ ids) : ∃ row ∈ t.runs.rows, row.id = id := by
  rw [← List.map_fst_zip (Nat.le_of_eq h.length_eq)] at hid
  obtain ⟨p, hp, rfl⟩ := List.mem_map.mp hid
  refine ⟨RunRow.ofRecord p.1 p.2, ?_, rfl⟩
  rw [h.rows_eq]
  exact List.mem_map_of_mem hp

theorem hasRun (h : Kept ws ids t) (hid : id ∈ ids) : t.runs.hasRun id = true := by
  obtain ⟨row, hrow, rfl⟩ := h.exists_row hid
  exact List.any_eq_true.mpr ⟨row, hrow, beq_self_eq_true _⟩

theorem lt_nextId (h : Kept ws ids t) (hid : id ∈ ids) : id < t.nextId := by
  obtain ⟨row, hrow, rfl⟩ := h.exists_row hid
  exact Int.lt_add_one_of_le (h.sound.le_lastId row hrow)

theorem addRun (h : Kept ws ids t) (r : RunRecord) :
    Kept (ws ++ [.run r]) (ids ++ [t.nextId]) (t.addRun r) where
  length_eq := by
    rw [Writing.records_run, List.length_append, List.length_append, h.length_eq]
    rfl
  ascending := by
    refine List.pairwise_append.mpr ⟨h.ascending, List.pairwise_singleton _ _, ?_⟩
    intro id hid other hother
    rw [List.mem_singleton.mp hother]
    exact h.lt_nextId hid
  sound := h.sound.addRun r
  rows_eq := by
    show t.runs.rows ++ [RunRow.ofRecord t.nextId r] = _
    rw [Writing.records_run, List.zip_append h.length_eq, List.map_append, h.rows_eq]
    rfl
  slices_eq id := by
    rw [Writing.resultsFor_run]
    exact h.slices_eq id
  resized_eq id := by
    rw [Writing.resultsFor_run]
    exact h.resized_eq id
  rejections_eq id := by
    rw [Writing.resultsFor_run]
    exact h.rejections_eq id

/-- Rows of one result after those of others for the run, if the result is for it. -/
theorem ofRun_foldl_put {ρ : Type} {address : ρ → Int64} {rows : RunResult → List ρ}
    {table : DetailTable ρ} {other : Int} {result : RunResult}
    (h : DetailTable.ofRun table id = DetailTable.putRows address OrderedMap.empty
      ((resultsFor id ws).flatMap rows)) :
    DetailTable.ofRun ((rows result).foldl (DetailTable.put address other) table) id =
      DetailTable.putRows address OrderedMap.empty
        ((resultsFor id (ws ++ [.details other result])).flatMap rows) := by
  rw [DetailTable.ofRun_foldl_put, Writing.resultsFor_details]
  split
  · subst other
    rw [h, List.flatMap_append, List.flatMap_singleton]
    -- putting the rows of all results one after the other is putting those of the last one last
    exact (List.foldl_append ..).symm
  · exact h

theorem addDetails (h : Kept ws ids t) (hid : id ∈ ids) (result : RunResult) :
    Kept (ws ++ [.details id result]) ids (t.addDetails id result) where
  length_eq := by
    rw [Writing.records_details]
    exact h.length_eq
  ascending := h.ascending
  sound := h.sound.addDetails (h.hasRun hid) result
  rows_eq := by
    rw [Writing.records_details]
    exact h.rows_eq
  slices_eq other := ofRun_foldl_put (h.slices_eq other)
  resized_eq other := ofRun_foldl_put (h.resized_eq other)
  rejections_eq other := ofRun_foldl_put (h.rejections_eq other)

end Kept

/-! ## Writing step by step -/

/-- The tables of a new store. -/
theorem holds_fresh : fresh.Holds ⟨{ RunTable.empty with hasError := true }, OrderedMap.empty,
    OrderedMap.empty, OrderedMap.empty⟩ :=
  ⟨rfl, rfl, rfl, rfl, rfl⟩

theorem kept_fresh : Kept [] [] ⟨{ RunTable.empty with hasError := true }, OrderedMap.empty,
    OrderedMap.empty, OrderedMap.empty⟩ :=
  ⟨rfl, .nil, ⟨fun _ => nofun, fun _ _ => ⟨rfl, rfl, rfl⟩⟩, rfl, fun _ => rfl, fun _ => rfl,
    fun _ => rfl⟩

theorem writeAll_append (hws : writeAll ws = .ok (ids, s)) :
    writeAll (ws ++ [w]) = write (ids, s) w := by
  unfold writeAll at hws ⊢
  rw [List.foldlM_append, hws]
  show write (ids, s) w >>= pure = _
  exact bind_pure _

theorem write_run {r : RunRecord} (h : s.insertRun r = .ok (id, s')) :
    write (ids, s) (.run r) = .ok (ids ++ [id], s') := by
  dsimp only [write]
  rw [h]
  rfl

theorem write_details {result : RunResult} (h : s.insertResult id result = .ok s') :
    write (ids, s) (.details id result) = .ok (ids, s') := by
  dsimp only [write]
  rw [h]
  rfl

/-- Orderly writes succeed, and this is what they leave. -/
theorem exists_kept (h : Orderly ws) :
    ∃ ids s t, writeAll ws = .ok (ids, s) ∧ s.Holds t ∧ Kept ws ids t := by
  induction h with
  | nil => exact ⟨[], fresh, _, rfl, holds_fresh, kept_fresh⟩
  | run r _ ih =>
    obtain ⟨ids, s, t, hws, hs, ht⟩ := ih
    obtain ⟨s', hrun, hs'⟩ := hs.insertRun_eq r
    refine ⟨_, s', _, ?_, hs', ht.addRun r⟩
    rw [writeAll_append hws]
    exact write_run hrun
  | details result _ hbefore hid ih =>
    obtain ⟨ids, s, t, hws, hs, ht⟩ := ih
    -- the run was there in the very store that is written to
    rw [hws] at hbefore
    cases hbefore
    obtain ⟨s', hresult, hs'⟩ := hs.insertResult_eq (ht.hasRun hid) result
    refine ⟨_, s', _, ?_, hs', ht.addDetails hid result⟩
    rw [writeAll_append hws]
    exact write_details hresult

/-- What writes leave is sound. -/
theorem sound_of_writeAll (h : Orderly ws) (hws : writeAll ws = .ok (ids, s)) : s.Sound := by
  obtain ⟨ids', s', t, hws', hs, ht⟩ := exists_kept h
  rw [hws] at hws'
  cases hws'
  exact ⟨t, hs, ht.sound⟩

/-! ## What the store answers -/

/-- The answers of a store after writes that gave these numbers. -/
structure Reflects (s : Store) (ws : List Writing) (ids : List Int) : Prop where
  /-- Every record was given a number. -/
  length_eq : ids.length = (records ws).length
  ascending : ids.Pairwise (· < ·)
  /-- A record is found by its number, as it was written. -/
  run? : ∀ p ∈ ids.zip (records ws), s.run? p.1 = .ok (some { p.2 with id := some p.1 })
  run?_none : ∀ id, id ∉ ids → s.run? id = .ok none
  listRuns_none : s.listRuns none =
    .ok ((ids.zip (records ws)).map fun p => { p.2 with id := some p.1 })
  listRuns_some : ∀ binary, s.listRuns (some binary) =
    .ok (((ids.zip (records ws)).filter fun p => p.2.binary = binary).map
      fun p => { p.2 with id := some p.1 })
  latestRun : ∀ binary mode, s.latestRun binary mode =
    .ok (((ids.zip (records ws)).filter fun p =>
      p.2.binary = binary ∧ p.2.mode = mode).getLast?.map Prod.fst)
  /-- What is listed for a run was written for it. -/
  slicesOf : ∀ id, ∃ rows, s.slicesOf id = .ok rows ∧
    Lists (fun x => Word.signed x.pointerAddress)
      ((resultsFor id ws).flatMap fun r => r.slices.map SliceRecord.stored) rows
  resizedOf : ∀ id, ∃ rows, s.resizedOf id = .ok rows ∧
    Lists (fun x => Word.signed x.address) ((resultsFor id ws).flatMap RunResult.resized) rows
  rejectionsOf : ∀ id, ∃ rows, s.rejectionsOf id = .ok rows ∧
    Lists (fun x => Word.signed x.address)
      ((resultsFor id ws).flatMap fun r => r.rejections.map Rejection.stored) rows

/-- The rows of numbered records can be read. -/
theorem mapM_toRecord (log : List (Int × RunRecord)) :
    (log.map fun p => RunRow.ofRecord p.1 p.2).mapM RunRow.toRecord =
      .ok (log.map fun p => p.2.numbered p.1) := by
  induction log with
  | nil => rfl
  | cons p log ih =>
    rw [List.map_cons, List.mapM_cons, RunRow.toRecord_ofRecord, ih]
    rfl

/-- Where numbers ascend each is found. -/
theorem find?_of_ascending {α : Type} {log : List (Int × α)} {p : Int × α}
    (hasc : (log.map Prod.fst).Pairwise (· < ·)) (hp : p ∈ log) :
    log.find? (fun q => q.1 = p.1) = some p := by
  obtain ⟨before, after, rfl⟩ := List.append_of_mem hp
  rw [List.pairwise_map] at hasc
  obtain ⟨-, -, hlt⟩ := List.pairwise_append.mp hasc
  have hbefore : before.find? (fun q => q.1 = p.1) = none := by
    -- every number in front of it is smaller
    rw [List.find?_eq_none]
    intro q hq heq
    have hqp := hlt q hq p List.mem_cons_self
    rw [of_decide_eq_true heq] at hqp
    exact Int.lt_irrefl _ hqp
  rw [List.find?_append, hbefore, Option.none_or]
  exact List.find?_cons_of_pos (decide_eq_true rfl)

namespace Kept

theorem map_fst (h : Kept ws ids t) : (ids.zip (records ws)).map Prod.fst = ids :=
  List.map_fst_zip (Nat.le_of_eq h.length_eq)

theorem find?_eq (h : Kept ws ids t) (id : Int) :
    t.runs.rows.find? (fun r => r.id = id) =
      ((ids.zip (records ws)).find? fun p => p.1 = id).map fun p => .ofRecord p.1 p.2 := by
  rw [h.rows_eq, List.find?_map]
  rfl

theorem run?_eq (hs : s.Holds t) (h : Kept ws ids t) {p : Int × RunRecord}
    (hp : p ∈ ids.zip (records ws)) : s.run? p.1 = .ok (some (p.2.numbered p.1)) := by
  have hfind := find?_of_ascending (by rw [h.map_fst]; exact h.ascending) hp
  rw [hs.run?_eq, h.find?_eq, hfind]
  dsimp only [Option.map_some]
  rw [RunRow.toRecord_ofRecord]
  rfl

theorem run?_eq_none (hs : s.Holds t) (h : Kept ws ids t) (hid : id ∉ ids) :
    s.run? id = .ok none := by
  have hfind : (ids.zip (records ws)).find? (fun p => p.1 = id) = none := by
    rw [List.find?_eq_none]
    intro p hp heq
    rw [← of_decide_eq_true heq] at hid
    exact hid (List.of_mem_zip hp).1
  rw [hs.run?_eq, h.find?_eq, hfind]
  rfl

theorem listRuns_some (hs : s.Holds t) (h : Kept ws ids t) (binary : String) :
    s.listRuns (some binary) = .ok (((ids.zip (records ws)).filter fun p =>
      p.2.binary = binary).map fun p => p.2.numbered p.1) := by
  rw [hs.listRuns_eq, ← mapM_toRecord]
  dsimp only
  rw [h.rows_eq, List.filter_map]
  rfl

theorem latestRun_eq (hs : s.Holds t) (h : Kept ws ids t) (binary : String)
    (mode : RecoveryMode) :
    s.latestRun binary mode = .ok (((ids.zip (records ws)).filter fun p =>
      p.2.binary = binary ∧ p.2.mode = mode).getLast?.map Prod.fst) := by
  have hfits : ∀ p : Int × RunRecord,
      (decide ((RunRow.ofRecord p.1 p.2).binary = binary) &&
          decide ((RunRow.ofRecord p.1 p.2).mode = mode.label)) =
        decide (p.2.binary = binary ∧ p.2.mode = mode) := by
    intro p
    show (decide (p.2.binary = binary) && decide (p.2.mode.label = mode.label)) = _
    simp only [RecoveryMode.label_inj, Bool.decide_and]
  -- the first row that fits from behind is the last of all that fit
  rw [hs.latestRun_eq, h.rows_eq, ← List.map_reverse, List.find?_map, Option.map_map,
    ← List.head?_reverse, ← List.filter_reverse, List.head?_filter]
  show Except.ok (Option.map Prod.fst (List.find? (fun p : Int × RunRecord =>
    decide ((RunRow.ofRecord p.1 p.2).binary = binary) &&
      decide ((RunRow.ofRecord p.1 p.2).mode = mode.label)) _)) = _
  simp only [hfits]

theorem reflects (hs : s.Holds t) (h : Kept ws ids t) : s.Reflects ws ids where
  length_eq := h.length_eq
  ascending := h.ascending
  run? p hp := h.run?_eq hs hp
  run?_none id hid := h.run?_eq_none hs hid
  listRuns_none := by
    rw [hs.listRuns_eq]
    dsimp only
    rw [h.rows_eq]
    exact mapM_toRecord _
  listRuns_some := h.listRuns_some hs
  latestRun := h.latestRun_eq hs
  slicesOf id := ⟨_, hs.slicesOf_eq id, DetailKind.slices.lists (h.slices_eq id)⟩
  resizedOf id := ⟨_, hs.resizedOf_eq id, DetailKind.resized.lists (h.resized_eq id)⟩
  rejectionsOf id := ⟨_, hs.rejectionsOf_eq id, DetailKind.rejections.lists (h.rejections_eq id)⟩

end Kept

/-- **A history is a log.** Runs and details that are written to a new store, in any order and for
any run that is there by then, are all stored. The store then answers every query by what was
written: the records in their order and under ascending numbers, and for each run the details that
were written for it, of those with one address the last, by signed address. -/
theorem writes_reflected (h : Orderly ws) :
    ∃ ids s, writeAll ws = .ok (ids, s) ∧ s.Reflects ws ids := by
  obtain ⟨ids, s, t, hws, hs, ht⟩ := exists_kept h
  exact ⟨ids, s, hws, ht.reflects hs⟩

/-- The result of a data run with one slice. -/
def oneSlice (pointer : Address) (text : String) : RunResult :=
  { mode := .readOnlyData, slices := [⟨pointer, 0x1000, 5, Text.Utf8.bytes text, text⟩] }

/-- Two runs with details in turns. For the first run a slice at one address is written twice, and
between the two one in the upper half of the address space; for the second run a rejection is
written at the same address. -/
def turns : List Writing :=
  [.run ⟨none, "libgame.so", .readOnlyData, none, .succeeded, 0, 0, none, "t0", "t1"⟩,
    .details 1 (oneSlice 0x2000 "hello"),
    .run ⟨some 7, "libgame.so", .code, none, .canceled, 0xFFFFFFFFFFFFFFFF, 1, none, "t2", "t3"⟩,
    .details 1 (oneSlice 0xFFFF800000002000 "there"),
    .details 2 { mode := .code, rejections := [⟨0x2000, .zeroLength⟩] },
    .details 1 (oneSlice 0x2000 "world")]

theorem reflected_turns :
    Orderly turns ∧
      ((writeAll turns).bind fun p => p.2.slicesOf 1) =
        .ok ((oneSlice 0xFFFF800000002000 "there").slices ++ (oneSlice 0x2000 "world").slices) ∧
      ∃ ids s, writeAll turns = .ok (ids, s) ∧ s.Reflects turns ids := by
  have h1 : Orderly (turns.take 1) := .run _ .nil
  have h2 : Orderly (turns.take 2) :=
    h1.details (oneSlice 0x2000 "hello") rfl (show (1 : Int) ∈ _ by decide)
  have h3 : Orderly (turns.take 3) := .run _ h2
  have h4 : Orderly (turns.take 4) :=
    h3.details (oneSlice 0xFFFF800000002000 "there") rfl (show (1 : Int) ∈ _ by decide)
  have h5 : Orderly (turns.take 5) :=
    h4.details { mode := .code, rejections := [⟨0x2000, .zeroLength⟩] } rfl
      (show (2 : Int) ∈ _ by decide)
  have h6 : Orderly turns :=
    h5.details (oneSlice 0x2000 "world") rfl (show (1 : Int) ∈ _ by decide)
  exact ⟨h6, rfl, writes_reflected h6⟩

end Store
end SliceRecovery
