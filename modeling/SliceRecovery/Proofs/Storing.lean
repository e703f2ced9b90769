import SliceRecovery.Proofs.Listing
import SliceRecovery.Proofs.Resolving

/-!
# SliceRecovery.Proofs.Storing -- requests to a store that has all its tables

A store in the current schema has four tables, and every request is then a plain function of them:
`Holds` ties a store to its tables, and each request is characterised once, by what it answers and
by the tables that it leaves. Nothing is left of missing tables and columns after that.

A history is sound (`Store.Sound`) when its numbers were given in order and its details belong to
runs. Both requests that write keep it so.

What is put into a row comes out of it again, whatever the 64 bits of its numbers; of a slice only
the bytes are made anew, from the text.
-/

namespace SliceRecovery

/-! ## What goes into a row comes out of it -/

theorem RecoveryMode.ofLabel?_label (m : RecoveryMode) : ofLabel? m.label = some m := by
  cases m <;> rfl

theorem RecoveryMode.label_inj {m n : RecoveryMode} : m.label = n.label ↔ m = n := by
  constructor
  · intro h
    have hsome := congrArg ofLabel? h
    rw [ofLabel?_label, ofLabel?_label] at hsome
    exact Option.some.inj hsome
  · rintro rfl
    rfl

theorem RecordStatus.read_label (status : RecordStatus) : read status.label = .ok status := by
  cases status <;> rfl

/-- A stored record as it is read. -/
def RunRecord.numbered (id : Int) (r : RunRecord) : RunRecord := { r with id := some id }

theorem RunRow.toRecord_ofRecord (id : Int) (r : RunRecord) :
    (ofRecord id r).toRecord = .ok (r.numbered id) := by
  unfold toRecord
  dsimp only [ofRecord]
  rw [RecoveryMode.ofLabel?_label, RecordStatus.read_label]
  simp only [UInt64.toUInt64_toInt64]
  rfl

/-- A slice with the bytes of its text. -/
def SliceRecord.stored (r : SliceRecord) : SliceRecord := { r with bytes := Text.Utf8.bytes r.text }

theorem SliceRecord.stored_eq_self {r : SliceRecord} (h : Text.Utf8.bytes r.text = r.bytes) :
    r.stored = r := by
  unfold stored
  rw [h]

theorem SliceRow.toRecord_ofRecord (r : SliceRecord) : (ofRecord r).toRecord = r.stored := by
  unfold toRecord ofRecord
  simp only [UInt64.toUInt64_toInt64]
  rfl

theorem ResizeRow.toRecord_ofRecord (r : ArrayResize) : (ofRecord r).toRecord = r := by
  obtain ⟨address, codeAddress, previousLength, length⟩ := r
  unfold toRecord ofRecord
  cases previousLength <;> simp

theorem RejectionRow.toRecord_ofRecord (r : StoredRejection) : (ofRecord r).toRecord = r := by
  unfold toRecord ofRecord
  simp only [UInt64.toUInt64_toInt64]

theorem Word.signed_toUInt64 (i : Int64) : signed i.toUInt64 = i.toInt := by
  rw [← toInt_toInt64, Int64.toInt64_toUInt64]

/-! ## Tables -/

/-- The tables of a store in the current schema. -/
structure Tables where
  runs : RunTable
  slices : DetailTable SliceRow
  resized : DetailTable ResizeRow
  rejections : DetailTable RejectionRow

namespace RunResult

/-- The rows of the slices of a result. -/
def sliceRows (result : RunResult) : List SliceRow := result.slices.map SliceRow.ofRecord

def resizeRows (result : RunResult) : List ResizeRow := result.resized.map ResizeRow.ofRecord

def rejectionRows (result : RunResult) : List RejectionRow :=
  result.rejections.map fun x => RejectionRow.ofRecord x.stored

end RunResult

namespace Tables

/-- The number that the next run will have. -/
def nextId (t : Tables) : Int := t.runs.lastId + 1

/-- The tables with one more run. -/
def addRun (t : Tables) (r : RunRecord) : Tables :=
  { t with runs := (t.runs.add fun id => .ofRecord id r).2 }

/-- The tables with the details of a result. -/
def addDetails (t : Tables) (id : Int) (result : RunResult) : Tables :=
  { t with
    slices := result.sliceRows.foldl (DetailTable.put SliceRow.pointerAddress id) t.slices
    resized := result.resizeRows.foldl (DetailTable.put ResizeRow.address id) t.resized
    rejections :=
      result.rejectionRows.foldl (DetailTable.put RejectionRow.address id) t.rejections }

/-- The slices of a run, as they are listed. -/
def slicesOf (t : Tables) (id : Int) : List SliceRecord :=
  (DetailTable.ofRun t.slices id).values.map SliceRow.toRecord

def resizedOf (t : Tables) (id : Int) : List ArrayResize :=
  (DetailTable.ofRun t.resized id).values.map ResizeRow.toRecord

def rejectionsOf (t : Tables) (id : Int) : List StoredRejection :=
  (DetailTable.ofRun t.rejections id).values.map RejectionRow.toRecord

/-- A run has no details. -/
structure Bare (t : Tables) (id : Int) : Prop where
  slices : DetailTable.ofRun t.slices id = OrderedMap.empty
  resized : DetailTable.ofRun t.resized id = OrderedMap.empty
  rejections : DetailTable.ofRun t.rejections id = OrderedMap.empty

/-- A run has the same details in both. -/
structure SameDetails (t t' : Tables) (id : Int) : Prop where
  slices : DetailTable.ofRun t'.slices id = DetailTable.ofRun t.slices id
  resized : DetailTable.ofRun t'.resized id = DetailTable.ofRun t.resized id
  rejections : DetailTable.ofRun t'.rejections id = DetailTable.ofRun t.rejections id

variable {t t' t'' : Tables} {id other : Int}

theorem SameDetails.trans (h : t.SameDetails t' id) (h' : t'.SameDetails t'' id) :
    t.SameDetails t'' id :=
  ⟨h'.slices.trans h.slices, h'.resized.trans h.resized, h'.rejections.trans h.rejections⟩

theorem Bare.of_sameDetails (hb : t.Bare id) (h : t.SameDetails t' id) : t'.Bare id :=
  ⟨h.slices.trans hb.slices, h.resized.trans hb.resized, h.rejections.trans hb.rejections⟩

theorem sameDetails_addRun (t : Tables) (r : RunRecord) (id : Int) :
    t.SameDetails (t.addRun r) id :=
  ⟨rfl, rfl, rfl⟩

/-- The details of a result go to one run only. -/
theorem sameDetails_addDetails (t : Tables) (result : RunResult) (h : other ≠ id) :
    t.SameDetails (t.addDetails id result) other := by
  unfold addDetails
  constructor <;> rw [DetailTable.ofRun_foldl_put, if_neg h]

end Tables

/-! ## Stores with all their tables -/

namespace Store

variable {s : Store} {t : Tables} {id : Int}

/-- A store has these tables, and the runs have the column for messages. -/
structure Holds (s : Store) (t : Tables) : Prop where
  hasError : t.runs.hasError = true
  runs : s.runs = some t.runs
  slices : s.slices = some t.slices
  resized : s.resized = some t.resized
  rejections : s.rejections = some t.rejections

namespace Holds

theorem insertRun_eq (h : s.Holds t) (r : RunRecord) :
    ∃ s', s.insertRun r = .ok (t.nextId, s') ∧ s'.Holds (t.addRun r) := by
  refine ⟨{ s with runs := some (t.addRun r).runs }, ?_, ⟨h.hasError, rfl, h.slices, h.resized,
    h.rejections⟩⟩
  unfold insertRun
  rw [h.runs]
  exact if_pos h.hasError

theorem putAll_eq {ρ : Type} {table : DetailTable ρ} (h : s.Holds t) (name : TableName)
    (address : ρ → Int64) (hrun : t.runs.hasRun id = true) (rows : List ρ) :
    s.putAll name address id (some table) rows =
      .ok (rows.foldl (DetailTable.put address id) table) := by
  unfold putAll
  rw [h.runs]
  dsimp only
  rw [hrun, Bool.or_true]
  rfl

/-- The details of a result can be stored for every run that is there. -/
theorem insertResult_eq (h : s.Holds t) (hrun : t.runs.hasRun id = true) (result : RunResult) :
    ∃ s', s.insertResult id result = .ok s' ∧ s'.Holds (t.addDetails id result) := by
  refine ⟨{ s with
    slices := some (t.addDetails id result).slices
    resized := some (t.addDetails id result).resized
    rejections := some (t.addDetails id result).rejections }, ?_,
    ⟨h.hasError, h.runs, rfl, rfl, rfl⟩⟩
  unfold insertResult
  rw [h.slices, h.resized, h.rejections, h.putAll_eq .slices SliceRow.pointerAddress hrun,
    h.putAll_eq .resized ResizeRow.address hrun, h.putAll_eq .rejections RejectionRow.address hrun]
  rfl

theorem run?_eq (h : s.Holds t) (id : Int) :
    s.run? id =
      match t.runs.rows.find? fun r => r.id = id with
      | none => .ok none
      | some r => r.toRecord.map some := by
  unfold run? readableRuns
  rw [h.runs]
  dsimp only
  rw [if_pos h.hasError]
  -- the row is looked for first, and only then read
  show (match t.runs.rows.find? fun r => r.id = id with
    | none => Except.ok none
    | some r => r.toRecord >>= fun x => .ok (some x)) = _
  split
  · rfl
  · rename_i r _
    cases r.toRecord <;> rfl

theorem listRuns_eq (h : s.Holds t) (binary : Option String) :
    s.listRuns binary =
      (match binary with
        | none => t.runs.rows
        | some b => t.runs.rows.filter fun r => r.binary = b).mapM RunRow.toRecord := by
  unfold listRuns readableRuns
  rw [h.runs]
  dsimp only
  rw [if_pos h.hasError]
  rfl

theorem latestRun_eq (h : s.Holds t) (binary : String) (mode : RecoveryMode) :
    s.latestRun binary mode = .ok ((t.runs.rows.reverse.find? fun r =>
      r.binary = binary && r.mode = mode.label).map RunRow.id) := by
  unfold latestRun
  rw [h.runs]

theorem slicesOf_eq (h : s.Holds t) (id : Int) : s.slicesOf id = .ok (t.slicesOf id) := by
  unfold slicesOf
  rw [h.slices]
  rfl

theorem resizedOf_eq (h : s.Holds t) (id : Int) : s.resizedOf id = .ok (t.resizedOf id) := by
  unfold resizedOf
  rw [h.resized]
  rfl

theorem rejectionsOf_eq (h : s.Holds t) (id : Int) :
    s.rejectionsOf id = .ok (t.rejectionsOf id) := by
  unfold rejectionsOf
  rw [h.rejections]
  rfl

end Holds
end Store

/-! ## Sound histories -/

namespace Tables

variable {t : Tables} {id other : Int} {r : RunRecord} {result : RunResult}

/-- Numbers are given in order, and details belong to runs. -/
structure Sound (t : Tables) : Prop where
  le_lastId : ∀ row ∈ t.runs.rows, row.id ≤ t.runs.lastId
  /-- What is not on record has no details. -/
  bare : ∀ id, t.runs.hasRun id = false → t.Bare id

theorem hasRun_addRun :
    (t.addRun r).runs.hasRun id = (t.runs.hasRun id || t.nextId == id) := by
  show (t.runs.rows ++ [RunRow.ofRecord t.nextId r]).any (fun row => row.id == id) = _
  rw [List.any_append, List.any_cons, List.any_nil, Bool.or_false]
  rfl

theorem hasRun_addRun_self : (t.addRun r).runs.hasRun t.nextId = true := by
  rw [hasRun_addRun, beq_self_eq_true, Bool.or_true]

/-- The number of the next run was not given before. -/
theorem Sound.hasRun_nextId (h : t.Sound) : t.runs.hasRun t.nextId = false := by
  refine Bool.eq_false_iff.mpr fun hrun => ?_
  obtain ⟨row, hrow, hid⟩ := List.any_eq_true.mp hrun
  have hle := h.le_lastId row hrow
  rw [beq_iff_eq.mp hid] at hle
  exact absurd hle (Int.not_le.mpr (Int.lt_succ _))

/-- The rows with one more run, searched for a number. -/
theorem find?_addRun :
    (t.addRun r).runs.rows.find? (fun row => row.id = id) =
      (t.runs.rows.find? fun row => row.id = id).or
        (if t.nextId = id then some (RunRow.ofRecord t.nextId r) else none) := by
  show (t.runs.rows ++ [RunRow.ofRecord t.nextId r]).find? (fun row => row.id = id) = _
  rw [List.find?_append, List.find?_singleton]
  simp only [decide_eq_true_eq]
  rfl

theorem Sound.find?_nextId (h : t.Sound) :
    t.runs.rows.find? (fun row => row.id = t.nextId) = none := by
  rw [List.find?_eq_none]
  intro row hrow hid
  have hrun : t.runs.hasRun t.nextId = true :=
    List.any_eq_true.mpr ⟨row, hrow, beq_iff_eq.mpr (of_decide_eq_true hid)⟩
  rw [h.hasRun_nextId] at hrun
  cases hrun

theorem Sound.addRun (h : t.Sound) (r : RunRecord) : (t.addRun r).Sound where
  le_lastId := by
    intro row hrow
    rcases List.mem_append.mp hrow with hrow | hrow
    · exact Int.le_trans (h.le_lastId row hrow) (Int.le_add_one (Int.le_refl _))
    · rw [List.mem_singleton.mp hrow]
      exact Int.le_refl _
  bare := by
    intro id hrun
    rw [hasRun_addRun, Bool.or_eq_false_iff] at hrun
    exact (h.bare id hrun.1).of_sameDetails (t.sameDetails_addRun r id)

/-- A run that was just put on record has no details. -/
theorem Sound.bare_addRun (h : t.Sound) (r : RunRecord) : (t.addRun r).Bare t.nextId :=
  (h.bare t.nextId h.hasRun_nextId).of_sameDetails (t.sameDetails_addRun r _)

theorem Sound.addDetails (h : t.Sound) (hrun : t.runs.hasRun id = true) (result : RunResult) :
    (t.addDetails id result).Sound where
  le_lastId := h.le_lastId
  bare := by
    intro other hother
    have hne : other ≠ id := by
      rintro rfl
      -- the details went to a run that is on record
      have hother : t.runs.hasRun other = false := hother
      rw [hrun] at hother
      cases hother
    exact (h.bare other hother).of_sameDetails (t.sameDetails_addDetails result hne)

end Tables

/-- A history with all its tables in which details belong to runs. -/
def Store.Sound (s : Store) : Prop := ∃ t, s.Holds t ∧ t.Sound

/-! ## Kinds of details -/

namespace RunResult

theorem map_sliceRows (result : RunResult) :
    result.sliceRows.map SliceRow.toRecord = result.slices.map SliceRecord.stored := by
  unfold sliceRows
  rw [List.map_map]
  exact List.map_congr_left fun r _ => SliceRow.toRecord_ofRecord r

theorem map_resizeRows (result : RunResult) :
    result.resizeRows.map ResizeRow.toRecord = result.resized := by
  unfold resizeRows
  rw [List.map_map]
  exact (List.map_congr_left fun r _ => ResizeRow.toRecord_ofRecord r).trans (List.map_id _)

theorem map_rejectionRows (result : RunResult) :
    result.rejectionRows.map RejectionRow.toRecord = result.rejections.map Rejection.stored := by
  unfold rejectionRows
  rw [List.map_map]
  exact List.map_congr_left fun x _ => RejectionRow.toRecord_ofRecord x.stored

end RunResult

/-- How details of one kind get into the rows of a table and out of them. -/
structure DetailKind (ρ σ : Type) where
  rows : RunResult → List ρ
  address : ρ → Int64
  toRecord : ρ → σ
  /-- What the rows of a result come out as. -/
  reported : RunResult → List σ
  key : σ → Address
  map_rows : ∀ result, (rows result).map toRecord = reported result
  key_eq : ∀ row, key (toRecord row) = (address row).toUInt64

namespace DetailKind

def slices : DetailKind SliceRow SliceRecord where
  rows := RunResult.sliceRows
  address := SliceRow.pointerAddress
  toRecord := SliceRow.toRecord
  reported result := result.slices.map SliceRecord.stored
  key := SliceRecord.pointerAddress
  map_rows := RunResult.map_sliceRows
  key_eq _ := rfl

def resized : DetailKind ResizeRow ArrayResize where
  rows := RunResult.resizeRows
  address := ResizeRow.address
  toRecord := ResizeRow.toRecord
  reported := RunResult.resized
  key := ArrayResize.address
  map_rows := RunResult.map_resizeRows
  key_eq _ := rfl

def rejections : DetailKind RejectionRow StoredRejection where
  rows := RunResult.rejectionRows
  address := RejectionRow.address
  toRecord := RejectionRow.toRecord
  reported result := result.rejections.map Rejection.stored
  key := StoredRejection.address
  map_rows := RunResult.map_rejectionRows
  key_eq _ := rfl

variable {ρ σ : Type} {table : DetailTable ρ} {id : Int}

/-- The details of results that were stored for a run, one result after the other, are listed by
signed address, of those with one address the last. -/
theorem lists (k : DetailKind ρ σ) {results : List RunResult}
    (h : DetailTable.ofRun table id =
      DetailTable.putRows k.address OrderedMap.empty (results.flatMap k.rows)) :
    Lists (fun x => Word.signed (k.key x)) (results.flatMap k.reported)
      ((DetailTable.ofRun table id).values.map k.toRecord) := by
  have hkey : ∀ row, Word.signed (k.key (k.toRecord row)) = (k.address row).toInt := by
    intro row
    rw [k.key_eq, Word.signed_toUInt64]
  have hreported : (results.flatMap k.rows).map k.toRecord = results.flatMap k.reported := by
    rw [List.map_flatMap]
    simp only [k.map_rows]
  rw [← hreported, h]
  exact (DetailTable.lists_putRows k.address (results.flatMap k.rows)).map hkey

end DetailKind
end SliceRecovery
