import Mathlib.Data.List.Perm.Basic
import SliceRecovery.Proofs.Contents
import SliceRecovery.Proofs.Repeating
import SliceRecovery.Proofs.Snapshots

/-!
# SliceRecovery.Proofs.Rearranging -- a data run does not see in which order things are listed

Two snapshots may list the same segments, sections and variables in another order, and other code.
The order of the variables is gone once they are in a table. The order of the regions stays, and a
read takes the first segment that holds its cursor; where no two segments share an address that is
the only one. So the two analyses differ in lists of which a data run sees the same: `relisted` puts
other lists into an analysis, and every step of a run is shown to commute with it, under the
condition `SameView` where the step looks at memory.
-/

namespace SliceRecovery

/-! ## Lists in another order -/

/-- What only one item of a list passes is found wherever that item stands. -/
theorem find?_eq_of_perm {α : Type} {p : α → Bool} {xs ys : List α} (hperm : xs.Perm ys)
    (hone : ∀ a ∈ xs, ∀ b ∈ xs, p a = true → p b = true → a = b) : xs.find? p = ys.find? p := by
  cases hx : xs.find? p with
  | none =>
    refine (List.find?_eq_none.mpr fun b hb => ?_).symm
    exact List.find?_eq_none.mp hx b (hperm.mem_iff.mpr hb)
  | some a =>
    have ha := List.mem_of_find?_eq_some hx
    have hpa := List.find?_some hx
    cases hy : ys.find? p with
    | none => exact absurd hpa (List.find?_eq_none.mp hy a (hperm.mem_iff.mp ha))
    | some b =>
      have hb := hperm.mem_iff.mpr (List.mem_of_find?_eq_some hy)
      rw [hone a ha b hb hpa (List.find?_some hy)]

namespace Memory

variable {segments others : List Segment} {a stop : Address}

theorem find?_of_perm (hperm : segments.Perm others) (hapart : Apart segments) :
    (segments.find? fun s => s.region.contains a) = others.find? fun s => s.region.contains a :=
  find?_eq_of_perm hperm fun _ hs _ ht hsa hta => hapart.eq_of_contains hs ht hsa hta

theorem readUpTo_of_perm (hperm : segments.Perm others) (hapart : Apart segments) (fuel : Nat)
    (a : Address) : readUpTo segments stop fuel a = readUpTo others stop fuel a := by
  induction fuel generalizing a with
  | zero => rfl
  | succ fuel ih =>
    unfold readUpTo
    rw [find?_of_perm hperm hapart]
    -- the rest of the range is read from wherever the segment ends
    simp only [ih]

/-- Segments that are apart are read alike in any order. -/
theorem read_of_perm (hperm : segments.Perm others) (hapart : Apart segments) (a : Address)
    (n : UInt64) : read segments a n = read others a n := by
  unfold read
  rw [hperm.length_eq]
  split
  · rfl
  · exact readUpTo_of_perm hperm hapart _ a

theorem readInteger_congr (h : ∀ a n, read segments a n = read others a n) (a : Address)
    (w : UInt64) (order : ByteOrder) :
    readInteger segments a w order = readInteger others a w order := by
  unfold readInteger
  rw [h]

end Memory

/-! ## Other lists in an analysis -/

/-- The lists of an analysis that no edit changes. -/
structure Listing where
  segments : List Segment
  sections : List Region
  references : List CodeReference
  blocks : List Block

namespace Analysis

variable {h i : Analysis} {l : Listing} {e : AnalysisError}

/-- The analysis with other lists. -/
def relisted (h : Analysis) (l : Listing) : Analysis :=
  { h with
    segments := l.segments, sections := l.sections, references := l.references, blocks := l.blocks }

@[simp]
theorem arch_relisted : (h.relisted l).arch = h.arch := rfl

@[simp]
theorem segments_relisted : (h.relisted l).segments = l.segments := rfl

@[simp]
theorem sections_relisted : (h.relisted l).sections = l.sections := rfl

@[simp]
theorem types_relisted : (h.relisted l).types = h.types := rfl

@[simp]
theorem declared_relisted : (h.relisted l).declared = h.declared := rfl

@[simp]
theorem batch_relisted : (h.relisted l).batch = h.batch := rfl

@[simp]
theorem hasType_relisted (name : String) : (h.relisted l).hasType name = h.hasType name := rfl

theorem evict_relisted (h : Analysis) (l : Listing) (a : Address) :
    (h.relisted l).evict a = (h.evict a).relisted l := by
  unfold evict
  rw [declared_relisted]
  split <;> rfl

theorem foldl_evict_relisted (h : Analysis) (l : Listing) (as : List Address) :
    as.foldl evict (h.relisted l) = (as.foldl evict h).relisted l := by
  induction as generalizing h with
  | nil => rfl
  | cons a as ih => rw [List.foldl_cons, List.foldl_cons, evict_relisted, ih]

theorem define_relisted (h : Analysis) (l : Listing) (a : Address) (type : DataType)
    (name : Option String) :
    (h.relisted l).define a type name = (h.define a type name).map (·.relisted l) := by
  unfold define
  rw [types_relisted, declared_relisted]
  split
  · rfl
  · dsimp only
    rw [foldl_evict_relisted]
    rfl

theorem ensureSliceType_relisted (h : Analysis) (l : Listing) (config : RecoveryConfig)
    (arch : Architecture) :
    (h.relisted l).ensureSliceType config arch =
      ((h.ensureSliceType config arch).1, (h.ensureSliceType config arch).2.relisted l) := by
  unfold ensureSliceType
  rw [hasType_relisted]
  split <;> rfl

theorem begin_relisted (h : Analysis) (l : Listing) :
    (h.relisted l).begin = h.begin.map (·.relisted l) := by
  unfold begin
  rw [batch_relisted]
  split <;> rfl

theorem commit_relisted (h : Analysis) (l : Listing) :
    (h.relisted l).commit = h.commit.map (·.relisted l) := by
  unfold commit
  rw [batch_relisted]
  split <;> rfl

theorem revert_relisted (h : Analysis) (l : Listing) :
    (h.relisted l).revert = h.revert.map (·.relisted l) := by
  unfold revert
  rw [batch_relisted]
  split
  · rfl
  · rw [rollBack_eq, rollBack_eq]
    rfl

/-- What a step left that may fail, with other lists. -/
def relistedStep (l : Listing) :
    Except (Analysis × AnalysisError) Analysis → Except (Analysis × AnalysisError) Analysis
  | .ok h => .ok (h.relisted l)
  | .error (h, e) => .error (h.relisted l, e)

theorem markSlice_relisted (h : Analysis) (l : Listing) (config : RecoveryConfig)
    (r : SliceRecord) :
    (h.relisted l).markSlice config r = relistedStep l (h.markSlice config r) := by
  rw [markSlice_eq, markSlice_eq, evict_relisted, define_relisted]
  cases (h.evict r.dataAddress).define r.dataAddress (.text r.length) none with
  | error e => rfl
  | ok m =>
    dsimp only [Except.map]
    rw [define_relisted]
    cases m.define r.pointerAddress (.named config.sliceTypeName)
      (some (config.displayName r.text)) with
    | error e => rfl
    | ok i => rfl

/-! ## The same view of memory -/

/-- Other lists in which reads come to the same and the same memory is read-only. -/
structure SameView (h : Analysis) (l : Listing) : Prop where
  read : ∀ a n, Memory.read l.segments a n = Memory.read h.segments a n
  readOnly : ∀ a, (h.relisted l).ReadOnlyAt a ↔ h.ReadOnlyAt a
  isEmpty : (WorkingSet.ofRegions (h.relisted l).segmentRegions l.sections).isEmpty =
    (WorkingSet.ofRegions h.segmentRegions h.sections).isEmpty

/-- Regions in another order give the same view, if the segments are apart. -/
theorem sameView_of_perm (hsegments : h.segments.Perm l.segments)
    (hsections : h.sections.Perm l.sections) (hapart : Memory.Apart h.segments) :
    h.SameView l where
  read a n := (Memory.read_of_perm hsegments hapart a n).symm
  readOnly a := by
    unfold ReadOnlyAt
    rw [segments_relisted, sections_relisted]
    simp only [hsegments.mem_iff, hsections.mem_iff]
  isEmpty := by
    have hregions := ((hsegments.map Segment.region).filter Region.isReadOnlySegment).append
      (hsections.filter Region.isReadOnlyData)
    exact hregions.isEmpty_eq.symm

theorem reportedVariables_relisted
    (hread : ∀ a n, Memory.read l.segments a n = Memory.read h.segments a n) :
    (h.relisted l).reportedVariables = h.reportedVariables := by
  refine List.map_congr_left fun v _ => ?_
  unfold withValue
  rw [arch_relisted, segments_relisted]
  simp only [Memory.readInteger_congr hread]

end Analysis

namespace PointerCandidate

variable {h : Analysis} {l : Listing}

/-- The same pointers are candidates. -/
theorem scan_relisted (hl : h.SameView l) (w : UInt64) :
    scan (h.relisted l) (WorkingSet.ofRegions (h.relisted l).segmentRegions l.sections) w =
      scan h (WorkingSet.ofRegions h.segmentRegions h.sections) w := by
  unfold scan
  rw [Analysis.reportedVariables_relisted hl.read]
  refine List.filterMap_congr fun v _ => ?_
  unfold ofVariable?
  have hcontains : ∀ a,
      (WorkingSet.ofRegions (h.relisted l).segmentRegions l.sections).contains a =
        (WorkingSet.ofRegions h.segmentRegions h.sections).contains a := by
    intro a
    rw [Bool.eq_iff_iff, Analysis.contains_workingSet_iff]
    exact (Analysis.contains_workingSet_iff (h := h.relisted l)).trans (hl.readOnly a)
  simp only [hcontains]

/-- A candidate leads to the same string. -/
theorem resolve_relisted (hread : ∀ a n, Memory.read l.segments a n = Memory.read h.segments a n)
    (arch : Architecture) (limit : UInt64) (c : PointerCandidate) :
    c.resolve (h.relisted l) arch limit = c.resolve h arch limit := by
  unfold resolve resolveLength readLength validate
  rw [Analysis.declared_relisted, Analysis.segments_relisted]
  simp only [Memory.readInteger_congr hread, hread]

end PointerCandidate

/-! ## The run -/

/-- A run in progress on an analysis with other lists. -/
def RunState.relisted (s : RunState) (l : Listing) : RunState :=
  { s with analysis := s.analysis.relisted l }

/-- What a run leaves, on an analysis with other lists. -/
def RunOutcome.relisted (o : RunOutcome) (l : Listing) : RunOutcome :=
  { o with analysis := o.analysis.relisted l }

/-- A choice between two ends that commute with other lists. -/
theorem RunOutcome.ite_relisted {l : Listing} {c : Prop} [Decidable c] {o p o' p' : RunOutcome}
    (ho : o' = o.relisted l) (hp : p' = p.relisted l) :
    (if c then o' else p') = (if c then o else p).relisted l := by
  rw [ho, hp, apply_ite (RunOutcome.relisted · l)]

namespace RunState

variable {s : RunState} {l : Listing}

@[simp]
theorem analysis_relisted : (s.relisted l).analysis = s.analysis.relisted l := rfl

@[simp]
theorem result_relisted : (s.relisted l).result = s.result := rfl

@[simp]
theorem watch_relisted : (s.relisted l).watch = s.watch := rfl

@[simp]
theorem count_relisted : (s.relisted l).count = s.count.relisted l := rfl

theorem pass_relisted (p : Phase) (done total : Nat) :
    (s.relisted l).pass p done total = (s.pass p done total).relisted l := rfl

theorem abort_relisted (s : RunState) (l : Listing) (e : AnalysisError) :
    (s.relisted l).abort e = (s.abort e).relisted l := by
  unfold abort relisted
  rw [Analysis.revert_relisted]
  cases s.analysis.revert <;> rfl

theorem close_relisted (s : RunState) (l : Listing) (config : RecoveryConfig) (total : Nat) :
    (s.relisted l).close config total = (s.close config total).relisted l := by
  unfold close relisted
  dsimp only [pass]
  rw [Analysis.commit_relisted]
  cases s.analysis.commit with
  | error e => rfl
  | ok h =>
    dsimp only [Except.map]
    split <;> rfl

end RunState

namespace DataRun

variable {config : RecoveryConfig} {arch : Architecture} {s : RunState} {l : Listing}
  {r : SliceRecord} {c : PointerCandidate}

/-- What a step of a run left that may fail, with other lists. -/
def relistedStep (l : Listing) :
    Except (RunState × AnalysisError) RunState → Except (RunState × AnalysisError) RunState
  | .ok s => .ok (s.relisted l)
  | .error (s, e) => .error (s.relisted l, e)

theorem accept_relisted (s : RunState) (l : Listing) :
    accept config arch r (s.relisted l) = relistedStep l (accept config arch r s) := by
  unfold accept
  rw [RunState.result_relisted, RunState.analysis_relisted]
  split
  · rw [Analysis.ensureSliceType_relisted]
    dsimp only
    rw [Analysis.markSlice_relisted]
    cases (s.analysis.ensureSliceType config arch).2.markSlice config r <;> rfl
  · dsimp only
    rw [RunState.analysis_relisted, Analysis.markSlice_relisted]
    cases s.analysis.markSlice config r <;> rfl

/-- No slice changes the segments. -/
theorem segments_accept {s' : RunState} (ha : accept config arch r s = .ok s') :
    s'.analysis.segments = s.analysis.segments := by
  have hmark : ∀ {h i : Analysis}, h.markSlice config r = .ok i → i.segments = h.segments := by
    intro h i hi
    obtain ⟨m, hm, hi⟩ := Analysis.markSlice_eq_ok_iff.mp hi
    rw [(Analysis.frame_define hi).segments_eq, (Analysis.frame_define hm).segments_eq,
      (Analysis.frame_evict h _).segments_eq]
  unfold accept at ha
  dsimp only at ha
  split at ha
  · cases ha
  · rename_i i hi
    cases ha
    rw [show i.segments = _ from hmark hi]
    split
    · exact Analysis.frame_ensureSliceType.segments_eq
    · rfl

theorem examine_relisted (s : RunState)
    (hread : ∀ a n, Memory.read l.segments a n = Memory.read s.analysis.segments a n) :
    examine config arch c (s.relisted l) = relistedStep l (examine config arch c s) := by
  unfold examine
  dsimp only
  rw [RunState.count_relisted, RunState.analysis_relisted,
    show s.count.analysis = s.analysis from rfl, PointerCandidate.resolve_relisted hread]
  cases c.resolve s.analysis arch config.maxLength with
  | error reason => rfl
  | ok r => exact accept_relisted s.count l

theorem segments_examine {s' : RunState} (he : examine config arch c s = .ok s') :
    s'.analysis.segments = s.analysis.segments := by
  unfold examine at he
  dsimp only at he
  split at he
  · cases he
    rfl
  · have hsegments := segments_accept he
    exact hsegments

/-- The loop commutes with other lists, since no step changes what it reads from. -/
theorem loop_relisted {cs : List PointerCandidate} {total done : Nat}
    (hread : ∀ a n, Memory.read l.segments a n = Memory.read s.analysis.segments a n) :
    loop config arch total done cs (s.relisted l) =
      relistedStep l (loop config arch total done cs s) := by
  induction cs generalizing s done with
  | nil => rfl
  | cons c cs ih =>
    unfold loop
    dsimp only
    rw [RunState.watch_relisted]
    split
    · rfl
    · rw [RunState.pass_relisted, examine_relisted (s.pass .resolvingSlices done total) hread]
      cases hstep : examine config arch c (s.pass .resolvingSlices done total) with
      | error x => rfl
      | ok s' =>
        -- the next candidate is resolved in the segments that this one was
        have hsegments := segments_examine hstep
        refine ih fun a n => ?_
        rw [hsegments]
        exact hread a n

theorem inBatch_relisted {cs : List PointerCandidate}
    (hread : ∀ a n, Memory.read l.segments a n = Memory.read s.analysis.segments a n) :
    inBatch config arch cs (s.relisted l) = (inBatch config arch cs s).relisted l := by
  unfold inBatch
  rw [RunState.analysis_relisted, Analysis.begin_relisted]
  cases hbegin : s.analysis.begin with
  | error e => rfl
  | ok h =>
    obtain ⟨-, rfl⟩ := Analysis.begin_eq_ok_iff.mp hbegin
    dsimp only [Except.map]
    rw [show ({ s.relisted l with
        analysis := (s.analysis.withBatch (some [])).relisted l } : RunState) =
      ({ s with analysis := s.analysis.withBatch (some []) } : RunState).relisted l from rfl,
      loop_relisted (s := { s with analysis := s.analysis.withBatch (some []) }) hread]
    cases loop config arch cs.length 0 cs { s with analysis := s.analysis.withBatch (some []) } with
    | error x => exact RunState.abort_relisted x.1 l x.2
    | ok s' => exact RunState.close_relisted s' l config cs.length

/-- **A data run sees of the lists what `SameView` says**: with other lists of the same view it
comes to the same, in the analysis with the other lists. -/
theorem run_relisted (config : RecoveryConfig) (cancellation : Cancellation) {h : Analysis}
    (hl : h.SameView l) :
    run config cancellation (h.relisted l) = (run config cancellation h).relisted l := by
  unfold run
  dsimp only
  rw [Analysis.arch_relisted]
  cases h.arch with
  | none => rfl
  | some arch =>
    dsimp only
    rw [Analysis.sections_relisted, hl.isEmpty, PointerCandidate.scan_relisted hl]
    refine RunOutcome.ite_relisted rfl (RunOutcome.ite_relisted rfl ?_)
    exact RunOutcome.ite_relisted rfl (inBatch_relisted (s := ⟨h, _, _⟩) hl.read)

end DataRun

/-! ## Rearranged snapshots -/

/-- The lists of a snapshot, as they are set up. -/
def Snapshot.listing (s : Snapshot) : Listing where
  segments := s.segments.map Segment.listed
  sections := s.sections.map Region.listed
  references := s.references
  blocks := s.blocks

/-- The same architecture and types, the same segments, sections and variables in another order,
and any references and blocks. -/
structure Snapshot.Rearranged (s t : Snapshot) : Prop where
  arch : t.arch = s.arch
  types : t.types = s.types
  segments : s.segments.Perm t.segments
  sections : s.sections.Perm t.sections
  declared : s.declared.Perm t.declared

namespace Snapshot.Rearranged

variable {s t : Snapshot}

theorem accepted (hst : s.Rearranged t) (hs : s.Accepted) : t.Accepted where
  segments x hx := hs.segments x (hst.segments.mem_iff.mpr hx)
  sections r hr := hs.sections r (hst.sections.mem_iff.mpr hr)

/-- Where no address is given twice, the table does not remember the order of its list. -/
theorem table_eq (hst : s.Rearranged t) (hdistinct : (s.declared.map Variable.address).Nodup) :
    VariableTable.ofList t.declared = VariableTable.ofList s.declared := by
  apply VariableTable.ext_get?
  intro a
  rw [VariableTable.get?_ofList, VariableTable.get?_ofList]
  have hperm : s.declared.reverse.Perm t.declared.reverse :=
    (List.reverse_perm _).trans (hst.declared.trans (List.reverse_perm _).symm)
  refine (find?_eq_of_perm hperm fun u hu v hv hua hva => ?_).symm
  refine List.inj_on_of_nodup_map hdistinct (List.mem_reverse.mp hu) (List.mem_reverse.mp hv) ?_
  rw [of_decide_eq_true hua, of_decide_eq_true hva]

/-- What the one snapshot is set up as, with other lists, is what the other is set up as. -/
theorem ofSnapshot_eq {h : Analysis} (hst : s.Rearranged t)
    (hdistinct : (s.declared.map Variable.address).Nodup) (hs : Analysis.ofSnapshot s = .ok h) :
    Analysis.ofSnapshot t = .ok (h.relisted t.listing) := by
  obtain ⟨haccepted, rfl⟩ := Analysis.ofSnapshot_eq_ok_iff.mp hs
  refine Analysis.ofSnapshot_eq_ok_iff.mpr ⟨hst.accepted haccepted, ?_⟩
  rw [hst.arch, hst.types, hst.table_eq hdistinct]
  rfl

theorem sameView {h : Analysis} (hst : s.Rearranged t) (hapart : Memory.Apart s.segments)
    (hs : Analysis.ofSnapshot s = .ok h) : h.SameView t.listing := by
  obtain ⟨-, rfl⟩ := Analysis.ofSnapshot_eq_ok_iff.mp hs
  refine Analysis.sameView_of_perm (hst.segments.map _) (hst.sections.map _) ?_
  exact List.pairwise_map.mpr hapart

end Snapshot.Rearranged

/-- **Data runs do not depend on the order of listing.** Let two snapshots differ in the order of
their segments, sections and variables and in their references and blocks, no two segments having
an address in common and no two variables the same address. If the one is accepted, so is the
other, and whatever the settings and the cancellation, a data run has the same result or fails with
the same error on both, passes the same checkpoints and leaves the same types and variables. -/
theorem data_run_order_free {s t : Snapshot} {h : Analysis} (hst : s.Rearranged t)
    (hapart : Memory.Apart s.segments) (hdistinct : (s.declared.map Variable.address).Nodup)
    (hs : Analysis.ofSnapshot s = .ok h) :
    ∃ i, Analysis.ofSnapshot t = .ok i ∧
      ∀ (config : RecoveryConfig) (cancellation : Cancellation),
        let one := h.recover .readOnlyData config cancellation
        let other := i.recover .readOnlyData config cancellation
        other.result = one.result ∧ other.progress = one.progress ∧
          other.analysis.types = one.analysis.types ∧
          other.analysis.declared = one.analysis.declared ∧
          other.analysis.reportedVariables = one.analysis.reportedVariables := by
  have hview := hst.sameView hapart hs
  refine ⟨_, hst.ofSnapshot_eq hdistinct hs, fun config cancellation => ?_⟩
  have hrun := DataRun.run_relisted config cancellation hview
  have hsegments : (DataRun.run config cancellation h).analysis.segments = h.segments :=
    (h.later_perform ⟨.readOnlyData, config, cancellation⟩).segments_eq
  unfold Analysis.recover
  dsimp only
  rw [hrun]
  refine ⟨rfl, rfl, rfl, rfl, ?_⟩
  refine Analysis.reportedVariables_relisted fun a n => ?_
  rw [hsegments]
  exact hview.read a n

/-! ## Strings across segments, listed in both orders -/

/-- A binary with a string that runs across two segments that abut and one that starts in a section
tagged as read-only data. -/
def abuttingSegments : Snapshot where
  arch := some (.ofWordSize "x86_64" 8 .little)
  segments := [
    ⟨{ start := 0x1000, stop := 0x1003, readable := true }, [104, 101, 108]⟩,
    ⟨{ start := 0x1003, stop := 0x1040, readable := true, writable := true }, [108, 111]⟩,
    ⟨{ start := 0x2000, stop := 0x2020, readable := true, writable := true },
      [0, 0x10, 0, 0, 0, 0, 0, 0, 5, 0, 0, 0, 0, 0, 0, 0,
        3, 0x10, 0, 0, 0, 0, 0, 0, 2, 0, 0, 0, 0, 0, 0, 0]⟩]
  sections := [
    { start := 0x1003, stop := 0x1005, use := some .readOnlyData },
    { start := 0x2000, stop := 0x2020, use := some .readWriteData }]
  declared := [
    ⟨0x2000, .pointerTo .char 8, none, none⟩, ⟨0x2010, .pointerTo .char 8, none, none⟩]

/-- The same binary with every list turned round and a reference more. -/
def abuttingSegmentsReversed : Snapshot :=
  { abuttingSegments with
    segments := abuttingSegments.segments.reverse
    sections := abuttingSegments.sections.reverse
    declared := abuttingSegments.declared.reverse
    references := [⟨0x4000, 0x1000⟩] }

theorem rearranged_abuttingSegments : abuttingSegments.Rearranged abuttingSegmentsReversed where
  arch := rfl
  types := rfl
  segments := (List.reverse_perm _).symm
  sections := (List.reverse_perm _).symm
  declared := (List.reverse_perm _).symm

theorem order_free_abuttingSegments :
    ∃ h i result, Analysis.ofSnapshot abuttingSegments = .ok h ∧
      Analysis.ofSnapshot abuttingSegmentsReversed = .ok i ∧
      (h.recover .readOnlyData {} none).result = .ok result ∧
      result.slices.map SliceRecord.text = ["hello", "lo"] ∧
      (i.recover .readOnlyData {} none).result = .ok result := by
  obtain ⟨h, hs⟩ : ∃ h, Analysis.ofSnapshot abuttingSegments = .ok h := ⟨_, rfl⟩
  obtain ⟨result, hr, htext⟩ : ∃ result, (h.recover .readOnlyData {} none).result = .ok result ∧
      result.slices.map SliceRecord.text = ["hello", "lo"] := by
    cases hs
    exact ⟨_, rfl, rfl⟩
  have hapart : Memory.Apart abuttingSegments.segments := by
    unfold Memory.Apart
    decide
  obtain ⟨i, hi, hsame⟩ :=
    data_run_order_free rearranged_abuttingSegments hapart (by decide) hs
  exact ⟨h, i, result, hs, hi, hr, htext, (hsame {} none).1.trans hr⟩

end SliceRecovery
