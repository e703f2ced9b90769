import SliceRecovery.Proofs.Account
import SliceRecovery.Proofs.Resizing
import SliceRecovery.Proofs.Storing

/-!
# SliceRecovery.Proofs.StoredDetails -- the details of a run as they are read back

A run reports everything by ascending address and no address twice, so nothing that it reports is
lost in a table that keeps one row for each address; and the text of a slice says what its bytes
are. What is read back differs from what was reported in one respect only. A table lists its rows by
signed address, so what lies in the upper half of the address space comes first. The order of the
report comes back just when all of it lies in one half.
-/

namespace SliceRecovery

variable {config : RecoveryConfig} {cancellation : Cancellation} {mode : RecoveryMode}
  {h : Analysis} {result : RunResult}

/-! ## The lists of a result -/

/-- Items at ascending addresses, at each of which something is declared. -/
structure AtDeclared {ρ : Type} (h : Analysis) (address : ρ → Address) (xs : List ρ) : Prop where
  ascending : xs.Pairwise fun a b => address a < address b
  declared : ∀ x ∈ xs, (h.declared.get? (address x)).isSome

/-- The lists of a result, as a run on `h` reports them. -/
structure RunResult.Reported (h : Analysis) (mode : RecoveryMode) (result : RunResult) : Prop where
  mode_eq : result.mode = mode
  slices : AtDeclared h SliceRecord.pointerAddress result.slices
  resized : AtDeclared h ArrayResize.address result.resized
  rejections : AtDeclared h Rejection.address result.rejections
  text_eq : ∀ r ∈ result.slices, Text.Utf8.bytes r.text = r.bytes

theorem atDeclared_nil {ρ : Type} {address : ρ → Address} : AtDeclared h address [] :=
  ⟨.nil, fun _ => nofun⟩

/-- The accepted and the rejected pointers of an account are declared. -/
theorem RunResult.Accounts.isSome {arch : Architecture} {limit : UInt64} {a : Address}
    (hacc : result.Accounts h arch limit)
    (ha : a ∈ result.slices.map SliceRecord.pointerAddress ++
      result.rejections.map Rejection.address) :
    (h.declared.get? a).isSome := by
  obtain ⟨v, hv, rfl⟩ := List.mem_map.mp (List.mem_of_mem_take (hacc.perm.mem_iff.mp ha))
  exact Analysis.isSome_of_mem (Analysis.mem_readOnlyPointers.mp hv).1

theorem DataRun.reported (hr : (run config cancellation h).result = .ok result) :
    result.Reported h .readOnlyData := by
  obtain ⟨arch, -, ⟨rfl, -⟩ | ⟨vs, rest, i, j, -, hcs, ht, hres, hend, -, -⟩⟩ := run_eq_ok hr
  · exact ⟨rfl, atDeclared_nil, atDeclared_nil, atDeclared_nil, fun _ => nofun⟩
  · have hacc := ht.accounts rfl hcs hres hend
    refine ⟨?_, ⟨List.pairwise_map.mp hacc.ascending_slices, fun r hm => ?_⟩, ?_,
      ⟨List.pairwise_map.mp hacc.ascending_rejections, fun r hm => ?_⟩,
      fun r hm => (hacc.readFrom r hm).text_eq⟩
    · rw [hres]
      rfl
    · exact hacc.isSome (List.mem_append_left _ (List.mem_map_of_mem hm))
    · rw [hres]
      exact atDeclared_nil
    · exact hacc.isSome (List.mem_append_right _ (List.mem_map_of_mem hm))

/-- The new lengths of a trace are given at ascending addresses, to declared arrays. -/
theorem CodeRun.Trace.atDeclared_resizes {vs : List Visit} {rest : List Variable} {i j : Analysis}
    (ht : Trace i vs j) (hcs : candidates h = vs.map Visit.array ++ rest) :
    AtDeclared h ArrayResize.address (resizes vs) where
  ascending := by
    unfold resizes
    rw [List.pairwise_filterMap]
    refine (ascending_visits hcs).imp_of_mem fun hv hw hlt r hr s hs => ?_
    rw [(ht.resize_eq hv hr).1, (ht.resize_eq hw hs).1]
    exact hlt
  declared := by
    intro r hm
    obtain ⟨v, hv, hvr⟩ := List.mem_filterMap.mp hm
    have hc : v.array ∈ candidates h := by
      rw [hcs]
      exact List.mem_append_left _ (List.mem_map_of_mem hv)
    rw [(ht.resize_eq hv hvr).1]
    exact Analysis.isSome_of_mem (List.mem_filter.mp hc).1

theorem CodeRun.reported (hr : (run config cancellation h).result = .ok result) :
    result.Reported h .code := by
  obtain ⟨rfl, -⟩ | ⟨vs, rest, i, j, -, hcs, ht, hres, -, -, -⟩ := run_eq_ok hr
  · exact ⟨rfl, atDeclared_nil, atDeclared_nil, atDeclared_nil, fun _ => nofun⟩
  · rw [hres]
    exact ⟨rfl, atDeclared_nil, ht.atDeclared_resizes hcs, atDeclared_nil, fun _ => nofun⟩

/-- Every run reports what it found by ascending address. -/
theorem reported_of_recover (hr : (h.recover mode config cancellation).result = .ok result) :
    result.Reported h mode := by
  cases mode with
  | readOnlyData => exact DataRun.reported hr
  | code => exact CodeRun.reported hr

theorem RunResult.Reported.map_stored (hr : result.Reported h mode) :
    result.slices.map SliceRecord.stored = result.slices :=
  (List.map_congr_left fun r hm => SliceRecord.stored_eq_self (hr.text_eq r hm)).trans
    (List.map_id _)

/-! ## The listings -/

theorem upperFirst_map_stored (xs : List Rejection) :
    upperFirst StoredRejection.address (xs.map Rejection.stored) =
      (upperFirst Rejection.address xs).map Rejection.stored :=
  upperFirst_map StoredRejection.address Rejection.stored xs

/-- Details that are reported by ascending address are listed with the upper half in front, if they
are the only ones of their run. -/
theorem DetailKind.values_eq {ρ σ : Type} {table : DetailTable ρ} {id : Int} (k : DetailKind ρ σ)
    (hempty : DetailTable.ofRun table id = OrderedMap.empty)
    (hasc : (k.reported result).Pairwise fun a b => k.key a < k.key b) :
    (DetailTable.ofRun ((k.rows result).foldl (DetailTable.put k.address id) table) id).values.map
        k.toRecord =
      upperFirst k.key (k.reported result) := by
  -- both are listings of what was reported, and there is only one
  have hput : DetailTable.ofRun ((k.rows result).foldl (DetailTable.put k.address id) table) id =
      DetailTable.putRows k.address OrderedMap.empty ([result].flatMap k.rows) := by
    rw [DetailTable.ofRun_foldl_put, if_pos rfl, hempty, List.flatMap_singleton]
  have hlists := k.lists hput
  rw [List.flatMap_singleton] at hlists
  exact hlists.unique (lists_upperFirst hasc)

namespace Tables

variable {t : Tables} {id : Int}

theorem slicesOf_addDetails (hb : t.Bare id) (hr : result.Reported h mode) :
    (t.addDetails id result).slicesOf id = upperFirst SliceRecord.pointerAddress result.slices := by
  have hasc := hr.slices.ascending
  rw [← hr.map_stored] at hasc ⊢
  exact DetailKind.slices.values_eq hb.slices hasc

theorem resizedOf_addDetails (hb : t.Bare id) (hr : result.Reported h mode) :
    (t.addDetails id result).resizedOf id = upperFirst ArrayResize.address result.resized :=
  DetailKind.resized.values_eq hb.resized hr.resized.ascending

theorem rejectionsOf_addDetails (hb : t.Bare id) (hr : result.Reported h mode) :
    (t.addDetails id result).rejectionsOf id =
      (upperFirst Rejection.address result.rejections).map Rejection.stored := by
  rw [← upperFirst_map_stored]
  exact DetailKind.rejections.values_eq hb.rejections
    (List.pairwise_map.mpr hr.rejections.ascending)

end Tables

/-! ## Details of a run that has none -/

namespace Store

variable {s s' : Store} {t : Tables} {id : Int}

/-- A run is on record and has no details. -/
structure Fresh (s : Store) (id : Int) : Prop where
  run : ∃ r, s.run? id = .ok (some r)
  slices : s.slicesOf id = .ok []
  resized : s.resizedOf id = .ok []
  rejections : s.rejectionsOf id = .ok []

/-- What is listed is there: a table without rows of a run. -/
theorem exists_table {ρ σ : Type} {table : Option (DetailTable ρ)} {name : TableName}
    {toRecord : ρ → σ} (h : (details name id table).map (·.map toRecord) = .ok []) :
    ∃ a, table = some a ∧ DetailTable.ofRun a id = OrderedMap.empty := by
  cases table with
  | none => cases h
  | some a =>
    have hnil : (DetailTable.ofRun a id).values.map toRecord = [] := Except.ok.inj h
    exact ⟨a, rfl, OrderedMap.eq_empty_of_values (List.map_eq_nil_iff.mp hnil)⟩

/-- A run that is found is in the table of runs, which has the column for messages. -/
theorem exists_runs {r : RunRecord} (h : s.run? id = .ok (some r)) :
    ∃ t, s.runs = some t ∧ t.hasError = true ∧ t.hasRun id = true := by
  unfold run? at h
  obtain ⟨t, ht, hfind⟩ := bind_eq_ok_iff.mp h
  unfold readableRuns at ht
  split at ht
  · cases ht
  · rename_i table hruns
    split at ht
    · rename_i herror
      cases ht
      split at hfind
      · cases hfind
      · rename_i row hrow
        refine ⟨t, hruns, herror, List.any_eq_true.mpr ⟨row, List.mem_of_find?_eq_some hrow, ?_⟩⟩
        have hid := List.find?_some hrow
        exact beq_iff_eq.mpr (of_decide_eq_true hid)
    · cases ht

/-- A store with a fresh run has all its tables. -/
theorem Fresh.exists_holds (h : s.Fresh id) :
    ∃ t, s.Holds t ∧ t.runs.hasRun id = true ∧ t.Bare id := by
  obtain ⟨r, hr⟩ := h.run
  obtain ⟨runs, hruns, herror, hrun⟩ := exists_runs hr
  obtain ⟨a, ha, hslices⟩ := exists_table h.slices
  obtain ⟨b, hb, hresized⟩ := exists_table h.resized
  obtain ⟨c, hc, hrejections⟩ := exists_table h.rejections
  exact ⟨⟨runs, a, b, c⟩, ⟨herror, hruns, ha, hb, hc⟩, hrun, hslices, hresized, hrejections⟩

/-- What is read back of the details of a result: everything, with the upper half of the address
space in front. -/
structure ReadsBack (s : Store) (id : Int) (result : RunResult) : Prop where
  slices : s.slicesOf id = .ok (upperFirst SliceRecord.pointerAddress result.slices)
  resized : s.resizedOf id = .ok (upperFirst ArrayResize.address result.resized)
  rejections : s.rejectionsOf id =
    .ok ((upperFirst Rejection.address result.rejections).map Rejection.stored)
  /-- When the slices come back just as they were reported. -/
  slices_iff : s.slicesOf id = .ok result.slices ↔
    OneHalf SliceRecord.pointerAddress result.slices
  resized_iff : s.resizedOf id = .ok result.resized ↔ OneHalf ArrayResize.address result.resized
  rejections_iff : s.rejectionsOf id = .ok (result.rejections.map Rejection.stored) ↔
    OneHalf Rejection.address result.rejections

theorem Holds.readsBack (hs : s.Holds (t.addDetails id result)) (hb : t.Bare id)
    (hr : result.Reported h mode) : s.ReadsBack id result := by
  have hslices := hs.slicesOf_eq id
  rw [Tables.slicesOf_addDetails hb hr] at hslices
  have hresized := hs.resizedOf_eq id
  rw [Tables.resizedOf_addDetails hb hr] at hresized
  have hrejections := hs.rejectionsOf_eq id
  rw [Tables.rejectionsOf_addDetails hb hr] at hrejections
  refine ⟨hslices, hresized, hrejections, ?_, ?_, ?_⟩
  · rw [hslices, Except.ok.injEq]
    exact upperFirst_eq_self_iff hr.slices.ascending
  · rw [hresized, Except.ok.injEq]
    exact upperFirst_eq_self_iff hr.resized.ascending
  · have hasc : (result.rejections.map Rejection.stored).Pairwise
        fun a b => a.address < b.address := List.pairwise_map.mpr hr.rejections.ascending
    rw [hrejections, ← upperFirst_map_stored, Except.ok.injEq, upperFirst_eq_self_iff hasc]
    exact oneHalf_map_iff _ _

end Store

/-- **Details come back.** Whatever the analysis, the settings and the cancellation: the details of
a run that returned a result can be stored for every run on record that has none, and all of them
are read back as they were reported. They are read back in the order of the report just when they
lie in one half of the address space; else the upper half comes first. -/
theorem details_read_back {s : Store} {id : Int}
    (hr : (h.recover mode config cancellation).result = .ok result) (hs : s.Fresh id) :
    ∃ s', s.insertResult id result = .ok s' ∧ s'.ReadsBack id result := by
  obtain ⟨t, ht, hrun, hb⟩ := hs.exists_holds
  obtain ⟨s', hinsert, hs'⟩ := ht.insertResult_eq hrun result
  exact ⟨s', hinsert, hs'.readsBack hb (reported_of_recover hr)⟩

/-- A binary with a pointer in each half of the address space. -/
def twoHalves : Analysis where
  arch := some (.ofWordSize "x86_64" 8 .little)
  segments := [
    ⟨{ start := 0x1000, stop := 0x1100, readable := true }, [104, 101, 108, 108, 111]⟩,
    ⟨{ start := 0x2000, stop := 0x2010, readable := true, writable := true },
      [0x00, 0x10, 0, 0, 0, 0, 0, 0, 5, 0, 0, 0, 0, 0, 0, 0]⟩,
    ⟨{ start := 0xFFFF800000002000, stop := 0xFFFF800000002010, readable := true, writable := true },
      [0x00, 0x10, 0, 0, 0, 0, 0, 0, 4, 0, 0, 0, 0, 0, 0, 0]⟩]
  declared := .ofList [
    ⟨0x2000, .pointerTo .char 8, none, none⟩,
    ⟨0xFFFF800000002000, .pointerTo .char 8, none, none⟩]

/-- A store with one run on record. -/
def oneRun : Store where
  version := 3
  runs := some ⟨true, [RunRow.ofRecord 1
    ⟨none, "libgame.so", .readOnlyData, none, .succeeded, 2, 0, none, "t0", "t1"⟩], 1⟩
  slices := some OrderedMap.empty
  resized := some OrderedMap.empty
  rejections := some OrderedMap.empty

theorem fresh_oneRun : oneRun.Fresh 1 := ⟨⟨_, rfl⟩, rfl, rfl, rfl⟩

theorem read_back_twoHalves :
    ∃ result s', (twoHalves.recover .readOnlyData {} none).result = .ok result ∧ oneRun.Fresh 1 ∧
      result.slices.map SliceRecord.pointerAddress = [0x2000, 0xFFFF800000002000] ∧
      oneRun.insertResult 1 result = .ok s' ∧ s'.ReadsBack 1 result := by
  obtain ⟨result, hr, hslices⟩ :
      ∃ result, (twoHalves.recover .readOnlyData {} none).result = .ok result ∧
        result.slices.map SliceRecord.pointerAddress = [0x2000, 0xFFFF800000002000] :=
    ⟨_, rfl, rfl⟩
  obtain ⟨s', hinsert, hback⟩ := details_read_back hr fresh_oneRun
  exact ⟨result, s', hr, fresh_oneRun, hslices, hinsert, hback⟩

/-- The slices of a run do not come back in the order of the report. -/
theorem not_in_order_twoHalves :
    ∃ result s' rows, (twoHalves.recover .readOnlyData {} none).result = .ok result ∧
      oneRun.Fresh 1 ∧ oneRun.insertResult 1 result = .ok s' ∧ s'.slicesOf 1 = .ok rows ∧
      rows ≠ result.slices ∧
      result.slices.map SliceRecord.pointerAddress = [0x2000, 0xFFFF800000002000] ∧
      rows.map SliceRecord.pointerAddress = [0xFFFF800000002000, 0x2000] := by
  refine ⟨_, _, _, rfl, fresh_oneRun, rfl, rfl, ?_, rfl, rfl⟩
  intro hsame
  have haddresses := congrArg (List.map SliceRecord.pointerAddress) hsame
  cases haddresses

end SliceRecovery
