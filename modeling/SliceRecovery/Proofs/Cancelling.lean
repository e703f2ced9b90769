import SliceRecovery.Proofs.Account
import SliceRecovery.Proofs.Opening
import SliceRecovery.Proofs.Resizing

/-!
# SliceRecovery.Proofs.Cancelling -- a cancelled run is a first part of the whole one

The checkpoints of a run are those that it passes when nobody cancels it. A run that is found
cancelled at one of the first two has not opened its batch and leaves everything as it was. One that
is found cancelled at the last has done all of its work. At any checkpoint in between the run closes
its batch as it was when the candidates before that checkpoint were finished: its lists and its
journal are first parts of those of the whole run, and end with the same candidate.
-/

namespace SliceRecovery

/-! ## Journals that grow -/

namespace Analysis

variable {h i j : Analysis} {config : RecoveryConfig} {arch : Architecture} {a : Address}
  {type : DataType} {name : Option String} {r : SliceRecord} {e : Edit} {es : List Edit}

/-- The open batch of `i` is that of `h` with further edits in front. -/
def Grows (h i : Analysis) : Prop := ∃ es, i.batch = h.batch.map (es ++ ·)

namespace Grows

theorem refl (h : Analysis) : Grows h h := ⟨[], by simp⟩

theorem trans (hi : Grows h i) (hj : Grows i j) : Grows h j := by
  obtain ⟨es, hes⟩ := hi
  obtain ⟨fs, hfs⟩ := hj
  refine ⟨fs ++ es, ?_⟩
  rw [hfs, hes, Option.map_map]
  congr 1
  funext b
  exact (List.append_assoc fs es b).symm

/-- Recording an edit puts it in front of whatever else was changed. -/
theorem record (hi : i.batch = h.batch) : Grows h (i.record e) := by
  refine ⟨[e], ?_⟩
  rw [← hi]
  rfl

theorem evict (h : Analysis) (a : Address) : Grows h (h.evict a) := by
  unfold Analysis.evict
  split
  · exact .refl h
  · exact .record rfl

theorem foldl_evict (as : List Address) (h : Analysis) : Grows h (as.foldl Analysis.evict h) := by
  induction as generalizing h with
  | nil => exact .refl h
  | cons a as ih => exact (evict h a).trans (ih _)

theorem define (hi : h.define a type name = .ok i) : Grows h i := by
  obtain ⟨-, rfl⟩ := define_eq_ok_iff.mp hi
  exact (foldl_evict _ h).trans (.record rfl)

theorem ensureSliceType : Grows h (h.ensureSliceType config arch).2 := by
  unfold Analysis.ensureSliceType
  split
  · exact .refl h
  · exact .record rfl

theorem mark (hi : h.mark config arch r = .ok i) : Grows h i := by
  obtain ⟨m, hm, hi⟩ := markSlice_eq_ok_iff.mp hi
  exact ((ensureSliceType.trans (evict _ _)).trans (define hm)).trans (define hi)

end Grows

/-- `i` comes from `h` by one batch with the edits `es`, newest first, that was closed. A batch
without edits is not kept. -/
structure Commits (h : Analysis) (es : List Edit) (i : Analysis) : Prop where
  batch_eq : i.batch = none
  history_eq : i.history = if es.isEmpty then h.history else es :: h.history

/-- The end of a run closes the batch that the run opened. -/
theorem commits_afterRun (config : RecoveryConfig) (hi : Frame (h.withBatch (some [])) i)
    (hb : i.batch = some es) (hj : i.commit = .ok j) : Commits h es (afterRun config j) := by
  have hhistory : i.history = h.history := hi.history_eq
  have hbatch : (afterRun config j).batch = none := by
    rw [afterRun_eq, commit_eq hj]
  refine ⟨hbatch, ?_⟩
  rw [afterRun_eq, ← hhistory]
  show j.history = _
  unfold commit at hj
  rw [hb] at hj
  cases es with
  | nil =>
    cases hj
    rfl
  | cons e es =>
    cases hj
    rfl

end Analysis

theorem DataRun.Trace.grows {config : RecoveryConfig} {arch : Architecture} {h i : Analysis}
    {vs : List Verdict} (ht : Trace config arch h vs i) : Analysis.Grows h i := by
  induction ht with
  | nil => exact .refl _
  | reject _ _ ih => exact ih
  | accept _ hm _ ih => exact (Analysis.Grows.mark hm).trans ih

theorem CodeRun.Trace.grows {h i : Analysis} {vs : List Visit} (ht : Trace h vs i) :
    Analysis.Grows h i := by
  induction ht with
  | nil => exact .refl _
  | keep _ _ ih => exact ih
  | resize _ hd _ ih => exact (Analysis.Grows.define hd).trans ih

/-! ## First parts -/

/-- A list is the beginning of another one and has just those of its entries whose addresses are
finished. -/
structure FirstOf {α : Type} (address : α → Address) (finished : List Address)
    (part whole : List α) : Prop where
  begins : part <+: whole
  covers : part = whole.filter fun x => address x ∈ finished

theorem FirstOf.of_append {α : Type} {address : α → Address} {finished rest : List Address}
    {xs ys : List α} (hnodup : (finished ++ rest).Nodup) (hx : ∀ x ∈ xs, address x ∈ finished)
    (hy : ∀ y ∈ ys, address y ∈ rest) : FirstOf address finished xs (xs ++ ys) := by
  refine ⟨List.prefix_append xs ys, ?_⟩
  have hxs : xs.filter (fun x => address x ∈ finished) = xs :=
    List.filter_eq_self.mpr fun x hmem => decide_eq_true (hx x hmem)
  -- no address is on both sides, so nothing of the rest gets into the first part
  have hys : ys.filter (fun y => address y ∈ finished) = [] := by
    refine List.filter_eq_nil_iff.mpr fun y hmem hfin => ?_
    exact List.disjoint_of_nodup_append hnodup (of_decide_eq_true hfin) (hy y hmem)
  rw [List.filter_append, hxs, hys, List.append_nil]

theorem FirstOf.nil {α : Type} (address : α → Address) (finished : List Address) :
    FirstOf address finished [] [] :=
  ⟨List.prefix_rfl, rfl⟩

/-- The result of a run that was cancelled when some candidates were finished, beside that of the
whole run. -/
structure RunResult.FirstPart (finished : List Address) (part whole : RunResult) : Prop where
  status_eq : part.status = .cancelled
  slices : FirstOf SliceRecord.pointerAddress finished part.slices whole.slices
  rejections : FirstOf Rejection.address finished part.rejections whole.rejections
  resized : FirstOf ArrayResize.address finished part.resized whole.resized

namespace Analysis

/-- The addresses of the candidates of a run, in their order. -/
def candidateAddresses (h : Analysis) : RecoveryMode → List Address
  | .readOnlyData => h.readOnlyPointers.map Variable.address
  | .code => (CodeRun.candidates h).map Variable.address

/-- A run that nobody cancels, in its open batch, when its first `k` candidates are finished and no
other was begun. -/
def afterFirst (h : Analysis) (mode : RecoveryMode) (config : RecoveryConfig) (k : Nat) :
    Option RunState :=
  match mode with
  | .readOnlyData =>
    match h.arch with
    | none => none
    | some arch =>
      let cs := DataRun.candidates h arch
      (DataRun.loop config arch cs.length 0 (cs.take k) (h.opened .readOnlyData)).toOption
  | .code =>
    let arrays := CodeRun.candidates h
    (CodeRun.loop arrays.length 0 (arrays.take k) (h.opened .code)).toOption

/-- The outcome `cut` of a run on `h` is that of the whole run stopped when `k` of its candidates
were finished. -/
structure StopsAfter (h : Analysis) (mode : RecoveryMode) (config : RecoveryConfig) (k : Nat)
    (cut whole : RunOutcome) : Prop where
  isPart : k < (h.candidateAddresses mode).length
  result : ∃ part full, cut.result = .ok part ∧ whole.result = .ok full ∧
    part.FirstPart ((h.candidateAddresses mode).take k) full
  /-- The batch is closed as it was when the last of those candidates was finished. Its edits are
  the oldest of those that the whole run commits. -/
  boundary : ∃ t j es fs, h.afterFirst mode config k = some t ∧ t.analysis.batch = some es ∧
    t.analysis.commit = .ok j ∧ cut.analysis = afterRun config j ∧
    Commits h es cut.analysis ∧ Commits h (fs ++ es) whole.analysis

/-- What it means for a run on `h` to be found cancelled at its `n`-th checkpoint first, whose
report is `p`. -/
def CancelledAt (h : Analysis) (mode : RecoveryMode) (config : RecoveryConfig) (n : Nat)
    (p : Progress) : Prop :=
  let whole := h.recover mode config none
  let cut := h.recover mode config (some n)
  match p.phase with
  | .classifyingRegions | .scanningPointers | .scanningArrays =>
    cut.result = .ok { mode, status := .cancelled } ∧ cut.analysis = h
  | .resolvingSlices | .followingReferences => h.StopsAfter mode config p.completed cut whole
  | .finishing => cut.result = whole.result ∧ cut.analysis = whole.analysis

variable {h : Analysis} {mode : RecoveryMode} {config : RecoveryConfig} {k total : Nat}
  {s t u : RunState}

/-- A loop that is left where the whole one was after `k` candidates closes its batch there. -/
theorem StopsAfter.of_close (hk : k < (h.candidateAddresses mode).length)
    (ht : h.afterFirst mode config k = some t)
    (htf : Frame (h.withBatch (some [])) t.analysis) (hsf : Frame t.analysis s.analysis)
    (htg : Grows (h.withBatch (some [])) t.analysis) (hsg : Grows t.analysis s.analysis)
    (hu : u.analysis = t.analysis)
    (hpart : u.result.FirstPart ((h.candidateAddresses mode).take k) s.result) :
    h.StopsAfter mode config k (u.close config total) (s.close config total) := by
  obtain ⟨j, hj, hcut, hcuta⟩ := RunState.exists_close (s := u) config total (by rwa [hu])
  obtain ⟨m, hm, hwhole, hwholea⟩ := RunState.exists_close config total (htf.trans hsf)
  -- the batch was empty when it was opened, so `es` and `fs ++ es` are all that is in it
  obtain ⟨es, hes⟩ := htg
  obtain ⟨fs, hfs⟩ := hsg
  have hes : t.analysis.batch = some es := by
    rw [hes]
    exact congrArg some (List.append_nil es)
  rw [hes] at hfs
  rw [hu] at hj
  refine ⟨hk, ⟨_, _, hcut, hwhole, hpart⟩, ⟨t, j, es, fs, ht, hes, hj, hcuta, ?_, ?_⟩⟩
  · rw [hcuta]
    exact commits_afterRun config htf hes hj
  · rw [hwholea]
    exact commits_afterRun config (htf.trans hsf) hfs hm

/-- The checkpoints of a run are two before the batch, those of its loop and one at the end. -/
theorem cancelledAt_of_close (mode : RecoveryMode) {inner : List Progress}
    (hwhole : h.recover mode config none = s.close config total)
    (hpassed : s.watch.passed =
      inner.reverse ++ [⟨mode.listing, 0, 1⟩, ⟨.classifyingRegions, 0, 1⟩])
    (hbefore : ∀ n < 2,
      (h.recover mode config (some n)).result = .ok { mode, status := .cancelled } ∧
        (h.recover mode config (some n)).analysis = h)
    (hinside : ∀ n p, inner[n]? = some p →
      (p.phase = .resolvingSlices ∨ p.phase = .followingReferences) ∧
        h.StopsAfter mode config p.completed (h.recover mode config (some (n + 2)))
          (h.recover mode config none))
    (hend : h.recover mode config (some (inner.length + 2)) =
      (s.cancelAt (inner.length + 2)).close config total)
    {n : Nat} {p : Progress} (hp : (h.recover mode config none).progress[n]? = some p) :
    h.CancelledAt mode config n p := by
  rw [hwhole, RunState.progress_close, hpassed, List.reverse_append, List.reverse_reverse] at hp
  unfold CancelledAt
  match n, hp with
  | 0, hp =>
    cases hp
    exact hbefore 0 Nat.zero_lt_two
  | 1, hp =>
    cases hp
    cases mode with
    | readOnlyData => exact hbefore 1 Nat.one_lt_two
    | code => exact hbefore 1 Nat.one_lt_two
  | n + 2, hp =>
    -- a checkpoint of the loop, or the one after it
    have hp : (inner ++ [⟨.finishing, total, total⟩])[n]? = some p := hp
    rcases Nat.lt_or_ge n inner.length with hlt | hge
    · rw [List.getElem?_append_left hlt] at hp
      obtain ⟨hphase | hphase, hstop⟩ := hinside n p hp
      · rw [hphase]
        exact hstop
      · rw [hphase]
        exact hstop
    · rw [List.getElem?_append_right hge] at hp
      obtain ⟨hn, hp⟩ := List.getElem?_eq_some_iff.mp hp
      have hn : n = inner.length := by
        rw [List.length_singleton] at hn
        omega
      subst hn
      have hp : p = ⟨.finishing, total, total⟩ := by
        rw [← hp]
        simp
      rw [hp, hend, hwhole]
      exact RunState.close_cancelAt config total

end Analysis

/-! ## The data run -/

namespace DataRun

variable {config : RecoveryConfig} {arch : Architecture} {h i j : Analysis} {vs ws : List Verdict}
  {s : RunState} {result : RunResult} {n : Nat}

/-- The addresses of the candidates of a data run are those of their pointers. -/
theorem candidateAddresses_eq (h : Analysis) (arch : Architecture) :
    h.candidateAddresses .readOnlyData = (candidates h arch).map PointerCandidate.source :=
  (PointerCandidate.sources_scan h arch.pointerWidth).symm

/-- What was accepted and rejected first is what belongs to the first candidates. -/
theorem firstPart_tally {part whole : RunResult}
    (hv : Trace config arch (h.withBatch (some [])) vs i) (hw : Trace config arch i ws j)
    (hcs : h.candidateAddresses .readOnlyData =
      (vs.map fun v => v.candidate.source) ++ ws.map fun v => v.candidate.source)
    (hpart : part = { tally config (h.withBatch (some [])) vs { mode := .readOnlyData } with
      status := .cancelled })
    (hwhole : whole =
      tally config i ws (tally config (h.withBatch (some [])) vs { mode := .readOnlyData })) :
    part.FirstPart (vs.map fun v => v.candidate.source) whole := by
  have hnodup : (h.candidateAddresses .readOnlyData).Nodup :=
    h.ascending_readOnlyPointers.imp UInt64.ne_of_lt
  rw [hcs] at hnodup
  rw [hpart, hwhole]
  refine ⟨rfl, ?_, ?_, .nil _ _⟩
  · exact .of_append hnodup
      (fun r hr => hv.sublist_slices.subset (List.mem_map_of_mem hr))
      (fun r hr => hw.sublist_slices.subset (List.mem_map_of_mem hr))
  · exact .of_append hnodup
      (fun r hr => hv.sublist_rejections.subset (List.mem_map_of_mem hr))
      (fun r hr => hw.sublist_rejections.subset (List.mem_map_of_mem hr))

/-- A run that is found cancelled at a checkpoint of its loop stops after the candidates before
it. -/
theorem stopsAfter (harch : h.arch = some arch)
    (hset : (WorkingSet.ofRegions h.segmentRegions h.sections).isEmpty = false)
    (hb : h.batch = none)
    (hl : loop config arch (candidates h arch).length 0 (candidates h arch)
      (h.opened .readOnlyData) = .ok s)
    (hlo : 2 ≤ n) (hhi : n < s.watch.passed.length) :
    ∃ k, (examinations (candidates h arch).length 0 (candidates h arch).length)[n - 2]? =
        some ⟨.resolvingSlices, k, (candidates h arch).length⟩ ∧
      h.StopsAfter .readOnlyData config k (run config (some n) h)
        (s.close config (candidates h arch).length) := by
  obtain ⟨k, t, u, hk, hp, ht, hrest, hu, hua, hur⟩ := loop_cut hl rfl hlo hhi
  rw [Nat.zero_add] at hp hrest
  -- the whole loop is one trace up to `t` and another one from there, and the cut one ends at `t`
  have hcut : run config (some n) h = u.close config (candidates h arch).length := by
    rw [run_eq_inBatch harch hset]
    · exact inBatch_of_loop hb hu
    · rintro _ ⟨⟩
      exact hlo
  obtain ⟨vs, hvs, hv, htr, hready⟩ := exists_trace ht rfl ready_opened
  obtain ⟨ws, hws, hw, hsr, -⟩ := exists_trace hrest (passed_loop ht rfl).1 hready
  have hfinished : ((candidates h arch).take k).map PointerCandidate.source =
      vs.map fun v => v.candidate.source := by
    rw [← hvs, List.map_map]
    rfl
  have hleft : ((candidates h arch).drop k).map PointerCandidate.source =
      ws.map fun v => v.candidate.source := by
    rw [← hws, List.map_map]
    rfl
  have hafter : h.afterFirst .readOnlyData config k = some t := by
    unfold Analysis.afterFirst
    dsimp only
    rw [harch]
    dsimp only
    rw [ht]
    rfl
  rw [hcut]
  refine ⟨k, hp, .of_close ?_ hafter hv.frame hw.frame hv.grows hw.grows hua ?_⟩
  · rw [candidateAddresses_eq h arch, List.length_map]
    exact hk
  · rw [candidateAddresses_eq h arch, ← List.map_take, hfinished]
    refine firstPart_tally hv hw ?_ ?_ ?_
    · rw [candidateAddresses_eq h arch, ← hfinished, ← hleft, ← List.map_append,
        List.take_append_drop]
    · rw [hur, htr]
      rfl
    · rw [hsr, htr]
      rfl

/-- A run that nobody cancels is completed if it has a result. -/
theorem status_eq_completed (hr : (run config none h).result = .ok result) :
    result.status = .completed := by
  obtain ⟨arch, s, -, -, -, hl, hrun⟩ := run_none_eq_ok hr
  obtain ⟨vs, -, ht, hs, -⟩ := exists_trace hl rfl ready_opened
  obtain ⟨j, -, hok, -⟩ := RunState.exists_close config (candidates h arch).length ht.frame
  rw [hrun, hok] at hr
  cases hr
  rw [hs]
  rfl

/-- What a cancellation does at each checkpoint of a data run that has a result. -/
theorem cancelledAt {p : Progress} (hr : (run config none h).result = .ok result)
    (hp : (run config none h).progress[n]? = some p) :
    h.CancelledAt .readOnlyData config n p := by
  obtain ⟨arch, s, harch, hset, hb, hl, hrun⟩ := run_none_eq_ok hr
  obtain ⟨-, hpassed⟩ := passed_loop hl rfl
  have hlen : s.watch.passed.length = (candidates h arch).length + 2 := by
    rw [hpassed, List.length_append, List.length_reverse, length_examinations]
    rfl
  refine Analysis.cancelledAt_of_close .readOnlyData hrun hpassed ?_ ?_ ?_ hp
  · exact fun n hn => run_of_lt_two harch hset hn
  · intro n p hp
    have hn := (List.getElem?_eq_some_iff.mp hp).1
    rw [length_examinations] at hn
    obtain ⟨k, hk, hstop⟩ := stopsAfter harch hset hb hl (n := n + 2) (Nat.le_add_left 2 n)
      (by omega)
    rw [Nat.add_sub_cancel, hp] at hk
    cases hk
    refine ⟨Or.inl rfl, ?_⟩
    show h.StopsAfter .readOnlyData config k _ (run config none h)
    rw [hrun]
    exact hstop
  · rw [length_examinations]
    refine (run_eq_inBatch harch hset ?_).trans
      (inBatch_of_loop hb (loop_cancelAt hl rfl (Nat.le_of_eq hlen)))
    rintro _ ⟨⟩
    exact Nat.le_add_left 2 _

end DataRun

/-! ## The code run -/

namespace CodeRun

variable {config : RecoveryConfig} {arch : Architecture} {h i j : Analysis} {vs ws : List Visit}
  {s : RunState} {result : RunResult} {n : Nat}

/-- What was resized first is what belongs to the first arrays. -/
theorem firstPart_resizes {part whole : RunResult} (hv : Trace h vs i) (hw : Trace i ws j)
    (hnodup : ((vs.map fun v => v.array.address) ++ ws.map fun v => v.array.address).Nodup)
    (hpart : part = { mode := .code, status := .cancelled, candidates := part.candidates,
                      resized := resizes vs })
    (hwhole : whole = { mode := .code, candidates := whole.candidates,
                        resized := resizes vs ++ resizes ws }) :
    part.FirstPart (vs.map fun v => v.array.address) whole := by
  have haddress : ∀ {g g' : Analysis} {us : List Visit}, Trace g us g' →
      ∀ r ∈ resizes us, r.address ∈ us.map fun v => v.array.address := by
    intro g g' us hu r hr
    obtain ⟨v, hmem, hvr⟩ := List.mem_filterMap.mp hr
    rw [(hu.resize_eq hmem hvr).1]
    exact List.mem_map_of_mem hmem
  rw [hpart, hwhole]
  exact ⟨rfl, .nil _ _, .nil _ _, .of_append hnodup (haddress hv) (haddress hw)⟩

/-- A run that is found cancelled at a checkpoint of its loop stops after the arrays before it. -/
theorem stopsAfter (config : RecoveryConfig) (harch : h.arch = some arch) (hb : h.batch = none)
    (hl : loop (candidates h).length 0 (candidates h) (h.opened .code) = .ok s)
    (hlo : 2 ≤ n) (hhi : n < s.watch.passed.length) :
    ∃ k, (visits (h.opened .code).analysis (candidates h).length 0 (candidates h))[n - 2]? =
        some ⟨.followingReferences, k, (candidates h).length⟩ ∧
      h.StopsAfter .code config k (run config (some n) h)
        (s.close config (candidates h).length) := by
  obtain ⟨k, t, u, hk, hp, ht, hrest, hu, hua, hur⟩ := loop_cut hl rfl hlo hhi
  rw [Nat.zero_add] at hp hrest
  have hcut : run config (some n) h = u.close config (candidates h).length := by
    rw [run_eq_inBatch harch]
    · exact inBatch_of_loop hb hu
    · rintro _ ⟨⟩
      exact hlo
  have htnone : t.watch.cancellation = none := by
    obtain ⟨_, ht', hnone, -⟩ := exists_loop_eq_ok (candidates h).length 0 ((candidates h).take k)
      (s := h.opened .code) rfl
    rw [ht] at ht'
    cases ht'
    exact hnone
  obtain ⟨vs, hvs, hv, htr⟩ := exists_trace ht rfl
  obtain ⟨ws, hws, hw, hsr⟩ := exists_trace hrest htnone
  have hfinished : ((candidates h).take k).map Variable.address =
      vs.map fun v => v.array.address := by
    rw [← hvs, List.map_map]
    rfl
  have hleft : ((candidates h).drop k).map Variable.address =
      ws.map fun v => v.array.address := by
    rw [← hws, List.map_map]
    rfl
  have hafter : h.afterFirst .code config k = some t := by
    unfold Analysis.afterFirst
    dsimp only
    rw [ht]
    rfl
  rw [hcut]
  refine ⟨k, hp, .of_close ?_ hafter hv.frame hw.frame hv.grows hw.grows hua ?_⟩
  · show k < ((candidates h).map Variable.address).length
    rw [List.length_map]
    exact hk
  · show u.result.FirstPart (((candidates h).map Variable.address).take k) s.result
    rw [← List.map_take, hfinished]
    refine firstPart_resizes hv hw ?_ ?_ ?_
    · rw [← hfinished, ← hleft, ← List.map_append, List.take_append_drop]
      have hasc : (candidates h).Pairwise fun u v => u.address < v.address :=
        h.ascending_reportedVariables.filter _
      exact (List.pairwise_map.mpr hasc).imp UInt64.ne_of_lt
    · rw [hur, htr]
      rfl
    · rw [hsr, htr]
      rfl

/-- A run that nobody cancels is completed if it has a result. -/
theorem status_eq_completed (hr : (run config none h).result = .ok result) :
    result.status = .completed := by
  obtain ⟨⟨arch, harch⟩, hb⟩ := run_none_eq_ok hr
  obtain ⟨s, hl, hrun⟩ := run_none config harch hb
  obtain ⟨vs, -, ht, hs⟩ := exists_trace hl rfl
  obtain ⟨j, -, hok, -⟩ := RunState.exists_close config (candidates h).length ht.frame
  rw [hrun, hok] at hr
  cases hr
  rw [hs]
  rfl

/-- What a cancellation does at each checkpoint of a code run that has a result. -/
theorem cancelledAt {p : Progress} (hr : (run config none h).result = .ok result)
    (hp : (run config none h).progress[n]? = some p) :
    h.CancelledAt .code config n p := by
  obtain ⟨⟨arch, harch⟩, hb⟩ := run_none_eq_ok hr
  obtain ⟨s, hl, hrun⟩ := run_none config harch hb
  obtain ⟨_, hl', -, hpassed⟩ := exists_loop_eq_ok (candidates h).length 0 (candidates h)
    (s := h.opened .code) rfl
  rw [hl] at hl'
  cases hl'
  have hlen := congrArg List.length hpassed
  rw [List.length_append, List.length_reverse] at hlen
  refine Analysis.cancelledAt_of_close .code hrun hpassed ?_ ?_ ?_ hp
  · exact fun n hn => run_of_lt_two harch hn
  · intro n p hp
    have hn := (List.getElem?_eq_some_iff.mp hp).1
    obtain ⟨k, hk, hstop⟩ := stopsAfter config harch hb hl (Nat.le_add_left 2 n) (by
      rw [hlen]
      exact Nat.add_lt_add_right hn 2)
    rw [Nat.add_sub_cancel, hp] at hk
    cases hk
    refine ⟨Or.inr rfl, ?_⟩
    show h.StopsAfter .code config k _ (run config none h)
    rw [hrun]
    exact hstop
  · refine (run_eq_inBatch harch ?_).trans
      (inBatch_of_loop hb (loop_cancelAt hl rfl (Nat.le_of_eq hlen)))
    rintro _ ⟨⟩
    exact Nat.le_add_left 2 _

end CodeRun

/-! ## Cancelled runs -/

/-- **A cancelled run is a first part of the whole one.** Whatever the analysis and the settings: if
a run that nobody cancels has a result, it is completed, and a run that is found cancelled at any of
its checkpoints has done nothing, or the work of the candidates before the checkpoint, or all. -/
theorem cancelled_run_first_part {h : Analysis} {mode : RecoveryMode} {config : RecoveryConfig}
    {result : RunResult} (hr : (h.recover mode config none).result = .ok result) :
    result.status = .completed ∧
      ∀ n p, (h.recover mode config none).progress[n]? = some p →
        h.CancelledAt mode config n p := by
  cases mode with
  | readOnlyData =>
    exact ⟨DataRun.status_eq_completed hr, fun n p hp => DataRun.cancelledAt hr hp⟩
  | code => exact ⟨CodeRun.status_eq_completed hr, fun n p hp => CodeRun.cancelledAt hr hp⟩

/-- Both runs, each cancelled in its loop: the one before its third pointer, the other between its
second array and the reference to it. -/
theorem first_part_mixedPointers :
    (∃ result, (mixedPointers.recover .readOnlyData {} none).result = .ok result ∧
      mixedPointers.StopsAfter .readOnlyData {} 2
        (mixedPointers.recover .readOnlyData {} (some 4))
        (mixedPointers.recover .readOnlyData {} none)) ∧
    ∃ result, (crowdedArrays.recover .code {} none).result = .ok result ∧
      crowdedArrays.StopsAfter .code {} 1 (crowdedArrays.recover .code {} (some 5))
        (crowdedArrays.recover .code {} none) := by
  constructor
  · obtain ⟨result, hr⟩ : ∃ result,
        (mixedPointers.recover .readOnlyData {} none).result = .ok result := ⟨_, rfl⟩
    have hp : (mixedPointers.recover .readOnlyData {} none).progress[4]? =
        some ⟨.resolvingSlices, 2, 5⟩ := rfl
    exact ⟨result, hr, (cancelled_run_first_part hr).2 4 _ hp⟩
  · obtain ⟨result, hr⟩ : ∃ result,
        (crowdedArrays.recover .code {} none).result = .ok result := ⟨_, rfl⟩
    have hp : (crowdedArrays.recover .code {} none).progress[5]? =
        some ⟨.followingReferences, 1, 3⟩ := rfl
    exact ⟨result, hr, (cancelled_run_first_part hr).2 5 _ hp⟩

end SliceRecovery
