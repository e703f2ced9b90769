import SliceRecovery.Proofs.Ending
import SliceRecovery.Proofs.Marking
import SliceRecovery.Proofs.Resolving

/-!
# SliceRecovery.Proofs.DataRun -- a data run as a trace of verdicts

A data run looks at its candidates one after the other, each in the analysis that the ones before
it left. `Trace` is that walk with everything else taken away: no checkpoints, no counters, no
lists under construction. `loop_eq_ok` and `loop_eq_error` say once what the loop of the program
makes of it, and `run_eq_ok` and `run_eq_error` what the whole run does; every property of data
runs is an induction over traces.
-/

namespace SliceRecovery.DataRun

/-- A candidate and what became of it. -/
structure Verdict where
  candidate : PointerCandidate
  outcome : Except RejectReason SliceRecord

namespace Verdict

/-- The slice that a candidate was accepted as. -/
def slice? (v : Verdict) : Option SliceRecord :=
  match v.outcome with
  | .ok r => some r
  | .error _ => none

/-- The rejection of a candidate that was not accepted. -/
def rejection? (v : Verdict) : Option Rejection :=
  match v.outcome with
  | .ok _ => none
  | .error reason => some ⟨v.candidate.source, reason⟩

end Verdict

/-- The accepted slices, in order. -/
def slices (vs : List Verdict) : List SliceRecord := vs.filterMap Verdict.slice?

/-- The rejections, in order. -/
def rejections (vs : List Verdict) : List Rejection := vs.filterMap Verdict.rejection?

variable {config : RecoveryConfig} {arch : Architecture} {h i : Analysis} {vs : List Verdict}
  {v : Verdict} {c : PointerCandidate} {cs : List PointerCandidate} {r : SliceRecord}

@[simp]
theorem slices_nil : slices [] = [] := rfl

@[simp]
theorem rejections_nil : rejections [] = [] := rfl

@[simp]
theorem slices_accept : slices (⟨c, .ok r⟩ :: vs) = r :: slices vs := rfl

@[simp]
theorem rejections_accept : rejections (⟨c, .ok r⟩ :: vs) = rejections vs := rfl

@[simp]
theorem slices_reject {reason : RejectReason} :
    slices (⟨c, .error reason⟩ :: vs) = slices vs := rfl

@[simp]
theorem rejections_reject {reason : RejectReason} :
    rejections (⟨c, .error reason⟩ :: vs) = ⟨c.source, reason⟩ :: rejections vs := rfl

theorem slices_append (vs ws : List Verdict) : slices (vs ++ ws) = slices vs ++ slices ws :=
  List.filterMap_append

theorem rejections_append (vs ws : List Verdict) :
    rejections (vs ++ ws) = rejections vs ++ rejections ws :=
  List.filterMap_append

/-! ## Traces -/

/-- Candidates are looked at one after the other: one that is rejected leaves the analysis as it
is, one that is accepted is declared before the next is looked at. -/
inductive Trace (config : RecoveryConfig) (arch : Architecture) :
    Analysis → List Verdict → Analysis → Prop
  | nil {h : Analysis} : Trace config arch h [] h
  | reject {h i : Analysis} {c : PointerCandidate} {reason : RejectReason} {vs : List Verdict} :
      c.resolve h arch config.maxLength = .error reason → Trace config arch h vs i →
      Trace config arch h (⟨c, .error reason⟩ :: vs) i
  | accept {h i j : Analysis} {c : PointerCandidate} {r : SliceRecord} {vs : List Verdict} :
      c.resolve h arch config.maxLength = .ok r → h.mark config arch r = .ok i →
      Trace config arch i vs j → Trace config arch h (⟨c, .ok r⟩ :: vs) j

namespace Trace

theorem frame (ht : Trace config arch h vs i) : Analysis.Frame h i := by
  induction ht with
  | nil => exact .refl _
  | reject _ _ ih => exact ih
  | accept _ hm _ ih => exact (Analysis.frame_mark hm).trans ih

/-- A slice that was accepted anywhere along a trace was resolved in the memory of its start. -/
theorem resolved (ht : Trace config arch h vs i) (hv : v ∈ vs) (hr : v.outcome = .ok r) :
    ∃ j, Analysis.Frame h j ∧ v.candidate.resolve j arch config.maxLength = .ok r := by
  induction ht with
  | nil => cases hv
  | reject _ _ ih =>
    rcases List.mem_cons.mp hv with rfl | hv
    · cases hr
    · exact ih hv
  | accept hres hm _ ih =>
    rcases List.mem_cons.mp hv with rfl | hv
    · cases hr
      exact ⟨_, .refl _, hres⟩
    · obtain ⟨j, hj, hrj⟩ := ih hv
      exact ⟨j, (Analysis.frame_mark hm).trans hj, hrj⟩

theorem hasType (ht : Trace config arch h vs i) (hh : h.hasType config.sliceTypeName = true) :
    i.types = h.types := by
  induction ht with
  | nil => rfl
  | reject _ _ ih => exact ih hh
  | accept _ hm _ ih =>
    rw [ih (Analysis.hasType_mark hm), Analysis.types_mark hm,
      Analysis.ensureSliceType_of_hasType hh]

/-- The types of an analysis change with the first slice only. -/
theorem types_eq (ht : Trace config arch h vs i) :
    i.types = if slices vs = [] then h.types else (h.ensureSliceType config arch).2.types := by
  induction ht with
  | nil => rfl
  | reject _ _ ih =>
    rw [slices_reject]
    exact ih
  | accept _ hm htail _ =>
    rw [slices_accept, if_neg (List.cons_ne_nil _ _), htail.hasType (Analysis.hasType_mark hm),
      Analysis.types_mark hm]

/-- Without an accepted slice nothing happens. -/
theorem eq_of_slices (ht : Trace config arch h vs i) (hs : slices vs = []) : i = h := by
  induction ht with
  | nil => rfl
  | reject _ _ ih => exact ih hs
  | accept => exact absurd hs (List.cons_ne_nil _ _)

/-- After an accepted slice the slice type is there and has a width. -/
theorem width_of_slices (ht : Trace config arch h vs i) (hs : slices vs ≠ []) :
    i.hasType config.sliceTypeName = true ∧
      (TypeTable.width? i.types (.named config.sliceTypeName)).isSome := by
  induction ht with
  | nil => exact absurd rfl hs
  | reject _ _ ih => exact ih hs
  | accept _ hm htail _ =>
    have hty := htail.hasType (Analysis.hasType_mark hm)
    refine ⟨?_, ?_⟩
    · rw [Analysis.hasType_iff, hty]
      exact Analysis.hasType_mark hm
    · rw [hty]
      exact Analysis.width_of_mark hm

/-- A trace is journalled as long as no pair is declared at the largest address, and its journal is
empty only if no slice was accepted. -/
theorem journals (ht : Trace config arch h vs i)
    (hlow : ∀ v ∈ vs, v.candidate.source < Word.top) :
    ∃ es, Analysis.Journals h i es ∧ (es = [] ↔ slices vs = []) := by
  induction ht with
  | nil => exact ⟨[], .refl _, by simp⟩
  | reject _ _ ih =>
    obtain ⟨es, hes, hnil⟩ := ih fun v hv => hlow v (List.mem_cons_of_mem _ hv)
    exact ⟨es, hes, hnil⟩
  | accept hres hm _ ih =>
    obtain ⟨es, hes, -⟩ := ih fun v hv => hlow v (List.mem_cons_of_mem _ hv)
    have hp : _ < Word.top := hlow _ List.mem_cons_self
    rw [← PointerCandidate.pointerAddress_eq hres] at hp
    obtain ⟨fs, hfs, hne⟩ :=
      Analysis.journals_mark (PointerCandidate.dataAddress_lt_top hres) hp hm
    exact ⟨es ++ fs, hfs.trans hes, by simp [hne]⟩

/-- The variables at the end are those that stand after the declarations of all slices, ranges
being measured by the types at the end. -/
theorem stands (ht : Trace config arch h vs i) (u : Variable) :
    u ∈ i.declared.values ↔
      u.Stands i.types h.declared ((slices vs).flatMap (SliceRecord.annotations config)) := by
  induction ht with
  | nil => exact Variable.stands_nil.symm
  | reject _ _ ih => exact ih
  | accept _ hm htail ih =>
    rw [slices_accept, List.flatMap_cons, Variable.stands_append, ih]
    intro u
    rw [Analysis.stands_mark hm, htail.hasType (Analysis.hasType_mark hm)]

theorem append {j : Analysis} {ws : List Verdict} (hi : Trace config arch h vs i)
    (hj : Trace config arch i ws j) : Trace config arch h (vs ++ ws) j := by
  induction hi with
  | nil => exact hj
  | reject hres _ ih => exact .reject hres (ih hj)
  | accept hres hm _ ih => exact .accept hres hm (ih hj)

end Trace

/-! ## The result of a trace -/

/-- A result after the verdicts of a trace from `h`. -/
def tally (config : RecoveryConfig) (h : Analysis) (vs : List Verdict) (result : RunResult) :
    RunResult :=
  { result with
    candidates := result.candidates + UInt64.ofNat vs.length
    slices := result.slices ++ slices vs
    rejections := result.rejections ++ rejections vs
    sliceTypeCreated :=
      if result.slices = [] ∧ slices vs ≠ [] then !h.hasType config.sliceTypeName
      else result.sliceTypeCreated }

theorem tally_nil (result : RunResult) : tally config h [] result = result := by
  simp [tally]

theorem tally_append {ws : List Verdict} (ht : Trace config arch h vs i) (result : RunResult) :
    tally config h (vs ++ ws) result = tally config i ws (tally config h vs result) := by
  unfold tally
  rw [List.length_append, UInt64.ofNat_add, ← UInt64.add_assoc, slices_append, rejections_append,
    ← List.append_assoc, ← List.append_assoc]
  by_cases hs : slices vs = []
  · -- nothing was declared before, so the name is looked up in the same types
    rw [ht.eq_of_slices hs]
    simp [hs]
  · simp [hs]

/-! ## The loop -/

/-- A run in progress has the slice type as soon as it has a slice. -/
def Ready (config : RecoveryConfig) (s : RunState) : Prop :=
  s.result.slices ≠ [] → s.analysis.hasType config.sliceTypeName = true

variable {s s' : RunState} {total done : Nat} {e : AnalysisError}

/-- The slice type is looked for at the first slice; looking for it at every slice is the same. -/
theorem accept_eq (hs : Ready config s) :
    accept config arch r s =
      let s := { s with
        analysis := (s.analysis.ensureSliceType config arch).2
        result := { s.result with sliceTypeCreated :=
          if s.result.slices = [] then !s.analysis.hasType config.sliceTypeName
          else s.result.sliceTypeCreated } }
      match s.analysis.markSlice config r with
      | .error (h, e) => .error ({ s with analysis := h }, e)
      | .ok h =>
        .ok { s with analysis := h, result := { s.result with slices := s.result.slices ++ [r] } } := by
  unfold accept
  by_cases hnil : s.result.slices = []
  · rewrite [if_pos (List.isEmpty_iff.mpr hnil), if_pos hnil,
      ← Analysis.fst_ensureSliceType s.analysis config arch]
    rfl
  · rewrite [if_neg (fun h => hnil (List.isEmpty_iff.mp h)), if_neg hnil,
      Analysis.ensureSliceType_of_hasType (hs hnil)]
    rfl

/-- Looking at one candidate is a trace of one verdict. -/
theorem examine_eq_ok (hs : Ready config s) (he : examine config arch c s = .ok s') :
    ∃ v, v.candidate = c ∧ Trace config arch s.analysis [v] s'.analysis ∧
      s'.result = tally config s.analysis [v] s.result := by
  have hcount : Ready config s.count := hs
  unfold examine at he
  dsimp only at he
  rw [show s.count.analysis = s.analysis from rfl] at he
  cases hres : c.resolve s.analysis arch config.maxLength with
  | error reason =>
    rw [hres] at he
    cases he
    exact ⟨⟨c, .error reason⟩, rfl, .reject hres .nil, by simp [tally, RunState.count]⟩
  | ok r =>
    rw [hres] at he
    dsimp only at he
    rw [accept_eq hcount] at he
    dsimp only at he
    split at he
    · cases he
    · rename_i i hi
      cases he
      refine ⟨⟨c, .ok r⟩, rfl, .accept hres hi .nil, ?_⟩
      by_cases hnil : s.result.slices = []
      · simp [tally, RunState.count, hnil]
      · simp [tally, RunState.count, hnil]

/-- A candidate ends the run when it is accepted and cannot be declared. -/
theorem examine_eq_error (hs : Ready config s) (he : examine config arch c s = .error (s', e)) :
    ∃ r, c.resolve s.analysis arch config.maxLength = .ok r ∧
      s.analysis.mark config arch r = .error (s'.analysis, e) := by
  have hcount : Ready config s.count := hs
  unfold examine at he
  dsimp only at he
  rw [show s.count.analysis = s.analysis from rfl] at he
  cases hres : c.resolve s.analysis arch config.maxLength with
  | error reason =>
    rw [hres] at he
    cases he
  | ok r =>
    rw [hres] at he
    dsimp only at he
    rw [accept_eq hcount] at he
    dsimp only at he
    split at he
    · rename_i m e hm
      cases he
      exact ⟨r, rfl, hm⟩
    · cases he

/-- Looking at a candidate leaves a run in progress that is ready for the next. -/
theorem ready_examine (hs : Ready config s) (he : examine config arch c s = .ok s') :
    Ready config s' := by
  obtain ⟨v, -, ht, hr⟩ := examine_eq_ok hs he
  intro hne
  by_cases hv : slices [v] = []
  · rw [ht.eq_of_slices hv]
    apply hs
    rwa [hr, tally, hv, List.append_nil] at hne
  · exact (ht.width_of_slices hv).1

/-- A loop that comes to its end has looked at a first part of its candidates: at all of them,
unless it was cancelled. -/
theorem loop_eq_ok (hs : Ready config s) (hl : loop config arch total done cs s = .ok s') :
    ∃ vs rest, cs = vs.map Verdict.candidate ++ rest ∧
      Trace config arch s.analysis vs s'.analysis ∧
      s'.result = { tally config s.analysis vs s.result with status := s'.result.status } ∧
      (rest = [] ∧ s'.result.status = s.result.status ∨ s'.result.status = .cancelled) := by
  induction cs generalizing done s with
  | nil =>
    cases hl
    exact ⟨[], [], rfl, .nil, by rw [tally_nil], Or.inl ⟨rfl, rfl⟩⟩
  | cons c cs ih =>
    unfold loop at hl
    dsimp only at hl
    split at hl
    · cases hl
      exact ⟨[], c :: cs, rfl, .nil, by rw [tally_nil]; rfl, Or.inr rfl⟩
    · split at hl
      · cases hl
      · rename_i s1 he
        have hpass : Ready config (s.pass .resolvingSlices done total) := hs
        obtain ⟨v, rfl, hv, hr⟩ := examine_eq_ok hpass he
        have hv : Trace config arch s.analysis [v] s1.analysis := hv
        obtain ⟨vs, rest, rfl, ht, hrest, hend⟩ := ih (ready_examine hpass he) hl
        refine ⟨v :: vs, rest, rfl, hv.append ht, ?_, ?_⟩
        · rw [show v :: vs = [v] ++ vs from rfl, tally_append hv, hrest, hr]
          rfl
        · rw [hr] at hend
          exact hend

/-- A loop that fails does so at a candidate that is accepted and cannot be declared. -/
theorem loop_eq_error (hs : Ready config s)
    (hl : loop config arch total done cs s = .error (s', e)) :
    ∃ (vs : List Verdict) (i : Analysis) (c : PointerCandidate) (r : SliceRecord),
      Trace config arch s.analysis vs i ∧ c.resolve i arch config.maxLength = .ok r ∧
      i.mark config arch r = .error (s'.analysis, e) := by
  induction cs generalizing done s with
  | nil => cases hl
  | cons c cs ih =>
    unfold loop at hl
    dsimp only at hl
    have hpass : Ready config (s.pass .resolvingSlices done total) := hs
    split at hl
    · cases hl
    · split at hl
      · rename_i x he
        cases hl
        obtain ⟨r, hres, hm⟩ := examine_eq_error hpass he
        exact ⟨[], _, c, r, .nil, hres, hm⟩
      · rename_i s1 he
        obtain ⟨v, -, hv, -⟩ := examine_eq_ok hpass he
        obtain ⟨vs, i, c, r, ht, hres, hm⟩ := ih (ready_examine hpass he) hl
        exact ⟨v :: vs, i, c, r, hv.append ht, hres, hm⟩

/-! ## The whole run -/

variable {cancellation : Cancellation} {result : RunResult} {error : RecoveryError}

/-- The part of a run inside its batch is a trace in the open batch, and the end of the batch. -/
theorem inBatch_eq_ok (hs : s.result.slices = [])
    (hr : (inBatch config arch cs s).result = .ok result) :
    ∃ vs rest i j, s.analysis.batch = none ∧ cs = vs.map Verdict.candidate ++ rest ∧
      Trace config arch (s.analysis.withBatch (some [])) vs i ∧
      result = { tally config s.analysis vs s.result with status := result.status } ∧
      (rest = [] ∧ result.status = s.result.status ∨ result.status = .cancelled) ∧
      i.commit = .ok j ∧ (inBatch config arch cs s).analysis = Analysis.afterRun config j := by
  unfold inBatch at hr ⊢
  split at hr
  · cases hr
  · rename_i h1 hbegin
    obtain ⟨hb, rfl⟩ := Analysis.begin_eq_ok_iff.mp hbegin
    have hready : Ready config { s with analysis := s.analysis.withBatch (some []) } :=
      fun hne => absurd hs hne
    split at hr
    · rename_i s1 e hl
      cases hr
    · rename_i s1 hl
      obtain ⟨vs, rest, hcs, ht, hres, hend⟩ := loop_eq_ok hready hl
      obtain ⟨j, hj, hok, hafter⟩ := RunState.exists_close config cs.length ht.frame
      rw [hok] at hr
      cases hr
      exact ⟨vs, rest, s1.analysis, j, hb, hcs, ht, hres, hend, hj, hafter⟩

/-- A run that fails inside its batch leaves the analysis in which it opened it. -/
theorem inBatch_eq_error (hs : s.result.slices = [])
    (hr : (inBatch config arch cs s).result = .error error) :
    (inBatch config arch cs s).analysis = s.analysis := by
  unfold inBatch at hr ⊢
  split at hr
  · rfl
  · rename_i h1 hbegin
    obtain ⟨hb, rfl⟩ := Analysis.begin_eq_ok_iff.mp hbegin
    have hready : Ready config { s with analysis := s.analysis.withBatch (some []) } :=
      fun hne => absurd hs hne
    split at hr
    · rename_i s1 e hl
      obtain ⟨vs, i, c, r, ht, hres, hm⟩ := loop_eq_error hready hl
      by_cases hnone : slices vs = []
      · -- the first slice: everything up to its bytes is journalled
        rw [ht.eq_of_slices hnone] at hm hres
        obtain ⟨es, hes⟩ := Analysis.journals_of_mark_error
          (PointerCandidate.dataAddress_lt_top hres) hm
        exact (RunState.abort_eq hb hes).2
      · -- after a slice was declared, its type keeps its width
        obtain ⟨hh, hw⟩ := ht.width_of_slices hnone
        rw [Analysis.width_of_mark_error hh hm] at hw
        cases hw
    · rename_i s1 hl
      obtain ⟨vs, rest, hcs, ht, -, -⟩ := loop_eq_ok hready hl
      obtain ⟨j, -, hok, -⟩ := RunState.exists_close config cs.length ht.frame
      rw [hok] at hr
      cases hr

/-- The candidates of a run. -/
def candidates (h : Analysis) (arch : Architecture) : List PointerCandidate :=
  PointerCandidate.scan h (WorkingSet.ofRegions h.segmentRegions h.sections) arch.pointerWidth

/-- A run fails or is cancelled before it touches anything, or goes into its batch. -/
theorem run_cases (config : RecoveryConfig) (cancellation : Cancellation) (h : Analysis) :
    (∃ error, (run config cancellation h).result = .error error ∧
        (run config cancellation h).analysis = h) ∨
      ∃ arch, h.arch = some arch ∧
        ((run config cancellation h).result = .ok { mode := .readOnlyData, status := .cancelled } ∧
            (run config cancellation h).analysis = h ∨
          ∃ watch, run config cancellation h =
            inBatch config arch (candidates h arch) ⟨h, { mode := .readOnlyData }, watch⟩) := by
  generalize hrun : run config cancellation h = outcome
  unfold run at hrun
  dsimp only at hrun
  split at hrun
  · exact Or.inl ⟨.unknownArchitecture, by rw [← hrun]; exact ⟨rfl, rfl⟩⟩
  · rename_i arch harch
    split at hrun
    · exact Or.inr ⟨arch, harch, Or.inl (by rw [← hrun]; exact ⟨rfl, rfl⟩)⟩
    · split at hrun
      · exact Or.inl ⟨.noCandidateRegions, by rw [← hrun]; exact ⟨rfl, rfl⟩⟩
      · split at hrun
        · exact Or.inr ⟨arch, harch, Or.inl (by rw [← hrun]; exact ⟨rfl, rfl⟩)⟩
        · exact Or.inr ⟨arch, harch, Or.inr ⟨_, hrun.symm⟩⟩

/-- A run with a result was cancelled before it opened its batch, or it opened one, followed a
trace in it and closed it. -/
theorem run_eq_ok (hr : (run config cancellation h).result = .ok result) :
    ∃ arch, h.arch = some arch ∧
      (result = { mode := .readOnlyData, status := .cancelled } ∧
          (run config cancellation h).analysis = h ∨
        ∃ vs rest i j, h.batch = none ∧ candidates h arch = vs.map Verdict.candidate ++ rest ∧
          Trace config arch (h.withBatch (some [])) vs i ∧
          result = { tally config h vs { mode := .readOnlyData } with status := result.status } ∧
          (rest = [] ∧ result.status = .completed ∨ result.status = .cancelled) ∧
          i.commit = .ok j ∧
          (run config cancellation h).analysis = Analysis.afterRun config j) := by
  rcases run_cases config cancellation h with
    ⟨error, herr, -⟩ | ⟨arch, harch, ⟨hok, hsame⟩ | ⟨watch, hrun⟩⟩
  · rw [herr] at hr
    cases hr
  · rw [hok] at hr
    cases hr
    exact ⟨arch, harch, Or.inl ⟨rfl, hsame⟩⟩
  · rw [hrun] at hr ⊢
    exact ⟨arch, harch, Or.inr (inBatch_eq_ok rfl hr)⟩

/-- A run that fails leaves the analysis as it was. -/
theorem run_eq_error (hr : (run config cancellation h).result = .error error) :
    (run config cancellation h).analysis = h := by
  rcases run_cases config cancellation h with
    ⟨_, -, hsame⟩ | ⟨arch, -, ⟨hok, -⟩ | ⟨watch, hrun⟩⟩
  · exact hsame
  · rw [hok] at hr
    cases hr
  · rw [hrun] at hr ⊢
    exact inBatch_eq_error rfl hr

end SliceRecovery.DataRun
