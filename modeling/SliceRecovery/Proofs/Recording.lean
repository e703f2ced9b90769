import SliceRecovery.History.Recorded
import SliceRecovery.Proofs.AppendOnly
import SliceRecovery.Proofs.StoredDetails

/-!
# SliceRecovery.Proofs.Recording -- a recorded run and its record agree

A run is recorded under a number that no run had before, so what is stored under it is what the run
reported and nothing else. That takes a history in which details belong to runs (`Store.Sound`),
since details without a run could lie in wait for a number; recording a run keeps a history so.

The counts of a record are lengths of lists, and the details are rows of tables that keep one row
for each address. They agree because a run reports no address twice. A count is a word, so it is the
length itself as long as the list is shorter than there are addresses; for that it is enough that
nothing is declared at one of them.
-/

namespace SliceRecovery

namespace Store

variable {s s' : Store} {t t' : Tables} {id other : Int} {r : RunRecord} {result : RunResult}

/-! ## One more run -/

/-- A record was put behind those that were there, and nothing was changed for any other run. -/
structure Appends (s s' : Store) (id : Int) (r : RunRecord) : Prop where
  rows : ∃ t t', s.runs = some t ∧ s'.runs = some t' ∧ t'.rows = t.rows ++ [RunRow.ofRecord id r]
  /-- The number was not given before. -/
  unused : s.run? id = .ok none
  run?_eq : s'.run? id = .ok (some { r with id := some id })
  run?_other : ∀ other, other ≠ id → s'.run? other = s.run? other
  slices_other : ∀ other, other ≠ id → s'.slicesOf other = s.slicesOf other
  resized_other : ∀ other, other ≠ id → s'.resizedOf other = s.resizedOf other
  rejections_other : ∀ other, other ≠ id → s'.rejectionsOf other = s.rejectionsOf other

/-- Tables with one more run, and with other details for it at most, are those of a history to which
the run was added. -/
theorem Holds.appends (hs : s.Holds t) (ht : t.Sound) (hs' : s'.Holds t')
    (hruns : t'.runs = (t.addRun r).runs)
    (hother : ∀ other, other ≠ t.nextId → t.SameDetails t' other) :
    s.Appends s' t.nextId r := by
  have hrows : t'.runs.rows = t.runs.rows ++ [RunRow.ofRecord t.nextId r] := by
    rw [hruns]
    rfl
  refine ⟨⟨_, _, hs.runs, hs'.runs, hrows⟩, ?_, ?_, fun other hne => ?_, fun other hne => ?_,
    fun other hne => ?_, fun other hne => ?_⟩
  · rw [hs.run?_eq, ht.find?_nextId]
  · rw [hs'.run?_eq, hruns, Tables.find?_addRun, ht.find?_nextId, Option.none_or, if_pos rfl]
    dsimp only
    rw [RunRow.toRecord_ofRecord]
    rfl
  · rw [hs'.run?_eq, hs.run?_eq, hruns, Tables.find?_addRun, if_neg (Ne.symm hne), Option.or_none]
  · rw [hs'.slicesOf_eq, hs.slicesOf_eq]
    unfold Tables.slicesOf
    rw [(hother other hne).slices]
  · rw [hs'.resizedOf_eq, hs.resizedOf_eq]
    unfold Tables.resizedOf
    rw [(hother other hne).resized]
  · rw [hs'.rejectionsOf_eq, hs.rejectionsOf_eq]
    unfold Tables.rejectionsOf
    rw [(hother other hne).rejections]

/-- Nothing is listed for a run without details. -/
theorem Holds.listings_of_bare (hs : s.Holds t) (hb : t.Bare id) :
    s.slicesOf id = .ok [] ∧ s.resizedOf id = .ok [] ∧ s.rejectionsOf id = .ok [] := by
  rw [hs.slicesOf_eq, hs.resizedOf_eq, hs.rejectionsOf_eq]
  unfold Tables.slicesOf Tables.resizedOf Tables.rejectionsOf
  rw [hb.slices, hb.resized, hb.rejections]
  exact ⟨rfl, rfl, rfl⟩

/-! ## Putting a run on record -/

/-- A run without a result goes on record without details. -/
theorem Holds.record_none (hs : s.Holds t) (r : RunRecord) :
    ∃ s', s.record r none = (some t.nextId, s') ∧ s'.Holds (t.addRun r) := by
  obtain ⟨s', hinsert, hs'⟩ := hs.insertRun_eq r
  refine ⟨s', ?_, hs'⟩
  unfold record
  rw [hinsert]

/-- A run with a result goes on record with the details of that. -/
theorem Holds.record_some (hs : s.Holds t) (r : RunRecord) (result : RunResult) :
    ∃ s', s.record r (some result) = (some t.nextId, s') ∧
      s'.Holds ((t.addRun r).addDetails t.nextId result) := by
  obtain ⟨s₁, hinsert, hs₁⟩ := hs.insertRun_eq r
  obtain ⟨s', hdetails, hs'⟩ := hs₁.insertResult_eq Tables.hasRun_addRun_self result
  refine ⟨s', ?_, hs'⟩
  unfold record
  rw [hinsert]
  dsimp only
  rw [hdetails]

variable {h : Analysis} {q : RunRequest} {startedAt finishedAt : String}

theorem runRecorded_of_ok {runId : Option Int}
    (hres : (h.recover q.mode q.config q.cancellation).result = .ok result)
    (hrec : s.record (.ofResult q.binary q.binaryHash result startedAt finishedAt) (some result) =
      (runId, s')) :
    s.runRecorded h q startedAt finishedAt =
      ⟨runId, h.recover q.mode q.config q.cancellation, s'⟩ := by
  unfold runRecorded
  dsimp only
  rw [hres]
  dsimp only
  rw [hrec]

theorem runRecorded_of_error {runId : Option Int} {e : RecoveryError}
    (hres : (h.recover q.mode q.config q.cancellation).result = .error e)
    (hrec : s.record (.ofError q.binary q.binaryHash q.mode e startedAt finishedAt) none =
      (runId, s')) :
    s.runRecorded h q startedAt finishedAt =
      ⟨runId, h.recover q.mode q.config q.cancellation, s'⟩ := by
  unfold runRecorded
  dsimp only
  rw [hres]
  dsimp only
  rw [hrec]

end Store

/-! ## Agreement -/

variable {h : Analysis} {s : Store} {id : Int} {result : RunResult} {mode : RecoveryMode}

/-- A count of reported items and the rows that were stored of them agree. -/
structure Counts {ρ σ : Type} (h : Analysis) (n : UInt64) (xs : List ρ) (rows : List σ) : Prop where
  length_eq : rows.length = xs.length
  eq_length : n = UInt64.ofNat xs.length
  /-- The count cannot have wrapped around unless all 2^64 addresses are declared. -/
  exact : (∃ a, h.declared.get? a = none) → n.toNat = xs.length

theorem AtDeclared.counts {ρ σ : Type} {address : ρ → Address} {xs : List ρ} {rows : List σ}
    (hx : AtDeclared h address xs) (hlen : rows.length = xs.length) :
    Counts h (UInt64.ofNat xs.length) xs rows where
  length_eq := hlen
  eq_length := rfl
  exact := by
    rintro ⟨a, ha⟩
    have hlt : (xs.map address).length < Word.span := by
      refine Word.length_lt_span (List.pairwise_map.mpr hx.ascending) (a := a) fun hm => ?_
      obtain ⟨x, hmem, rfl⟩ := List.mem_map.mp hm
      have hsome := hx.declared x hmem
      rw [ha] at hsome
      cases hsome
    rw [List.length_map] at hlt
    rw [UInt64.toNat_ofNat']
    exact Nat.mod_eq_of_lt hlt

/-- The record of a run with a result sums that up, and so do the details in the history. -/
structure RunRecord.SumsUp (r : RunRecord) (h : Analysis) (result : RunResult) (s : Store)
    (id : Int) : Prop where
  status_eq : r.status =
    match result.status with
    | .completed => .succeeded
    | .cancelled => .canceled
  error_eq : r.error = none
  accepted_data : r.mode = .readOnlyData →
    ∃ rows, s.slicesOf id = .ok rows ∧ Counts h r.accepted result.slices rows
  accepted_code : r.mode = .code →
    ∃ rows, s.resizedOf id = .ok rows ∧ Counts h r.accepted result.resized rows
  rejected : ∃ rows, s.rejectionsOf id = .ok rows ∧ Counts h r.rejected result.rejections rows

theorem RunResult.Reported.sumsUp {t : Tables} {q : RunRequest} {startedAt finishedAt : String}
    (hr : result.Reported h mode) (hs : s.Holds (t.addDetails id result)) (hb : t.Bare id) :
    (RunRecord.ofResult q.binary q.binaryHash result startedAt finishedAt).SumsUp h result s id where
  status_eq := by
    show RecordStatus.ofResult result = _
    unfold RecordStatus.ofResult
    cases result.status <;> rfl
  error_eq := rfl
  accepted_data := by
    intro hmode
    have hmode : result.mode = .readOnlyData := hmode
    refine ⟨_, (hs.readsBack hb hr).slices, ?_⟩
    unfold RunRecord.ofResult
    dsimp only
    rw [hmode]
    exact hr.slices.counts length_upperFirst
  accepted_code := by
    intro hmode
    have hmode : result.mode = .code := hmode
    refine ⟨_, (hs.readsBack hb hr).resized, ?_⟩
    unfold RunRecord.ofResult
    dsimp only
    rw [hmode]
    exact hr.resized.counts length_upperFirst
  rejected := by
    refine ⟨_, (hs.readsBack hb hr).rejections, hr.rejections.counts ?_⟩
    rw [List.length_map, length_upperFirst]

/-- A run and its record under a number. -/
structure RecordedRun.Agrees (o : RecordedRun) (s : Store) (h : Analysis) (q : RunRequest)
    (startedAt finishedAt : String) (id : Int) (r : RunRecord) : Prop where
  outcome_eq : o.outcome = h.recover q.mode q.config q.cancellation
  appends : s.Appends o.store id r
  request : r.binary = q.binary ∧ r.mode = q.mode ∧ r.binaryHash = q.binaryHash ∧
    r.startedAt = startedAt ∧ r.finishedAt = finishedAt
  of_ok : ∀ result, o.outcome.result = .ok result →
    o.runId = some id ∧ r.SumsUp h result o.store id
  /-- A run that failed is on record with its message and without details. -/
  of_error : ∀ e, o.outcome.result = .error e →
    r.status = .failed ∧ r.accepted = 0 ∧ r.rejected = 0 ∧ r.error = some e.message ∧
      o.store.slicesOf id = .ok [] ∧ o.store.resizedOf id = .ok [] ∧
      o.store.rejectionsOf id = .ok []

/-- A history in which a run is recorded agrees with it and is sound again. -/
def Store.AgreesWith (s : Store) (h : Analysis) (q : RunRequest) (startedAt finishedAt : String) :
    Prop :=
  (s.runRecorded h q startedAt finishedAt).store.Sound ∧
    ∃ id r, (s.runRecorded h q startedAt finishedAt).Agrees s h q startedAt finishedAt id r

section

variable {t : Tables} {q : RunRequest}

theorem Store.Holds.agrees_of_ok (hs : s.Holds t) (ht : t.Sound)
    (hres : (h.recover q.mode q.config q.cancellation).result = .ok result)
    (startedAt finishedAt : String) : s.AgreesWith h q startedAt finishedAt := by
  have hr := reported_of_recover hres
  obtain ⟨s', hrec, hs'⟩ := hs.record_some
    (.ofResult q.binary q.binaryHash result startedAt finishedAt) result
  unfold Store.AgreesWith
  rw [Store.runRecorded_of_ok hres hrec]
  refine ⟨⟨_, hs', (ht.addRun _).addDetails Tables.hasRun_addRun_self result⟩, t.nextId, _, rfl,
    hs.appends ht hs' rfl fun other hne => ?_, ⟨rfl, hr.mode_eq, rfl, rfl, rfl⟩,
    fun result' hok => ?_, fun e herr => ?_⟩
  · exact (t.sameDetails_addRun _ other).trans ((t.addRun _).sameDetails_addDetails result hne)
  · rw [hres] at hok
    cases hok
    exact ⟨rfl, hr.sumsUp hs' (ht.bare_addRun _)⟩
  · rw [hres] at herr
    cases herr

theorem Store.Holds.agrees_of_error {e : RecoveryError} (hs : s.Holds t) (ht : t.Sound)
    (hres : (h.recover q.mode q.config q.cancellation).result = .error e)
    (startedAt finishedAt : String) : s.AgreesWith h q startedAt finishedAt := by
  obtain ⟨s', hrec, hs'⟩ := hs.record_none
    (.ofError q.binary q.binaryHash q.mode e startedAt finishedAt)
  unfold Store.AgreesWith
  rw [Store.runRecorded_of_error hres hrec]
  refine ⟨⟨_, hs', ht.addRun _⟩, t.nextId, _, rfl,
    hs.appends ht hs' rfl fun other _ => t.sameDetails_addRun _ other,
    ⟨rfl, rfl, rfl, rfl, rfl⟩, fun result hok => ?_, fun e' herr => ?_⟩
  · rw [hres] at hok
    cases hok
  · rw [hres] at herr
    cases herr
    obtain ⟨hslices, hresized, hrejections⟩ := hs'.listings_of_bare (ht.bare_addRun _)
    exact ⟨rfl, rfl, rfl, rfl, hslices, hresized, hrejections⟩

end

/-- The history with one run is what writing that run leaves. -/
theorem sound_oneRun : oneRun.Sound :=
  Store.sound_of_writeAll (.run ⟨none, "libgame.so", .readOnlyData, none, .succeeded, 2, 0, none, "t0",
    "t1"⟩ .nil) rfl

/-- A request for a data run. -/
def dataRequest : RunRequest := { binary := "libgame.so", mode := .readOnlyData, config := {} }

end SliceRecovery
