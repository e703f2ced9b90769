import SliceRecovery.Proofs.Checkpoints

/-!
# SliceRecovery.Proofs.Opening -- how the two runs come to their batch

Two checkpoints come before the batch of a run. At either of them a cancelled run ends with nothing
done; after them the run is its loop over the candidates in the open batch, whoever may cancel it
there. What it takes to come that far is read off a run that nobody cancels: an architecture, no
batch of the caller's and, for a data run, a region to look at.
-/

namespace SliceRecovery

/-- The phase in which the candidates are listed. -/
def RecoveryMode.listing : RecoveryMode → Phase
  | readOnlyData => .scanningPointers
  | code => .scanningArrays

/-- A run that nobody cancels, in its open batch and before its first candidate. -/
def Analysis.opened (h : Analysis) (mode : RecoveryMode) : RunState :=
  ⟨h.withBatch (some []), { mode }, ⟨none, [⟨mode.listing, 0, 1⟩, ⟨.classifyingRegions, 0, 1⟩]⟩⟩

section Runs

variable {config : RecoveryConfig} {arch : Architecture} {h : Analysis} {n : Nat} {u : RunState}
  {cancellation : Cancellation} {result : RunResult}

theorem DataRun.ready_opened : Ready config (h.opened .readOnlyData) :=
  fun hne => absurd rfl hne

theorem DataRun.inBatch_of_loop {cs : List PointerCandidate} {s : RunState}
    (hb : s.analysis.batch = none)
    (hl : loop config arch cs.length 0 cs
      { s with analysis := s.analysis.withBatch (some []) } = .ok u) :
    inBatch config arch cs s = u.close config cs.length := by
  unfold inBatch
  rw [Analysis.begin_eq_ok_iff.mpr ⟨hb, rfl⟩]
  dsimp only
  rw [hl]

/-- A run that is not found cancelled before its batch opens one. -/
theorem DataRun.run_eq_inBatch (harch : h.arch = some arch)
    (hset : (WorkingSet.ofRegions h.segmentRegions h.sections).isEmpty = false)
    (hc : ∀ n, cancellation = some n → 2 ≤ n) :
    run config cancellation h = inBatch config arch (candidates h arch)
      ⟨h, { mode := .readOnlyData },
        ⟨cancellation, [⟨.scanningPointers, 0, 1⟩, ⟨.classifyingRegions, 0, 1⟩]⟩⟩ := by
  have hfirst : Watch.stops ⟨cancellation, []⟩ = false :=
    Watch.not_stops fun n hn => Nat.lt_of_lt_of_le Nat.zero_lt_two (hc n hn)
  have hsecond : Watch.stops ⟨cancellation, [⟨.classifyingRegions, 0, 1⟩]⟩ = false :=
    Watch.not_stops hc
  unfold run
  rw [harch]
  dsimp only [RunState.pass, Watch.pass]
  rw [hfirst, if_neg Bool.false_ne_true, hset, if_neg Bool.false_ne_true, hsecond,
    if_neg Bool.false_ne_true]
  rfl

/-- A run that is found cancelled before its batch does nothing. -/
theorem DataRun.run_of_lt_two (harch : h.arch = some arch)
    (hset : (WorkingSet.ofRegions h.segmentRegions h.sections).isEmpty = false) (hn : n < 2) :
    (run config (some n) h).result = .ok { mode := .readOnlyData, status := .cancelled } ∧
      (run config (some n) h).analysis = h := by
  have hsecond : Watch.stops ⟨some n, [⟨.classifyingRegions, 0, 1⟩]⟩ = true :=
    Watch.stops_of_le rfl (Nat.le_of_lt_succ hn)
  unfold run
  rw [harch]
  dsimp only [RunState.pass, Watch.pass]
  rw [hset, if_neg Bool.false_ne_true, hsecond, if_pos rfl]
  split
  · exact ⟨rfl, rfl⟩
  · exact ⟨rfl, rfl⟩

/-- A data run that has a result when nobody cancels it comes to the end of its candidates. -/
theorem DataRun.run_none_eq_ok (hr : (run config none h).result = .ok result) :
    ∃ arch s, h.arch = some arch ∧
      (WorkingSet.ofRegions h.segmentRegions h.sections).isEmpty = false ∧ h.batch = none ∧
      loop config arch (candidates h arch).length 0 (candidates h arch) (h.opened .readOnlyData) =
        .ok s ∧
      run config none h = s.close config (candidates h arch).length := by
  cases harch : h.arch with
  | none =>
    unfold run at hr
    rw [harch] at hr
    cases hr
  | some arch =>
    cases hset : (WorkingSet.ofRegions h.segmentRegions h.sections).isEmpty with
    | true =>
      unfold run at hr
      rw [harch] at hr
      dsimp only [RunState.pass, Watch.pass] at hr
      rw [hset, if_pos rfl] at hr
      cases hr
    | false =>
      have hnever : ∀ n, (none : Cancellation) = some n → 2 ≤ n := fun n hn => nomatch hn
      rw [run_eq_inBatch harch hset hnever] at hr ⊢
      unfold inBatch at hr
      split at hr
      · cases hr
      · rename_i h1 hbegin
        obtain ⟨hb, rfl⟩ := Analysis.begin_eq_ok_iff.mp hbegin
        split at hr
        · cases hr
        · rename_i s hl
          exact ⟨arch, s, rfl, rfl, hb, hl, inBatch_of_loop hb hl⟩

theorem CodeRun.inBatch_of_loop {arrays : List Variable} {s : RunState}
    (hb : s.analysis.batch = none)
    (hl : loop arrays.length 0 arrays
      { s with analysis := s.analysis.withBatch (some []) } = .ok u) :
    inBatch config arrays s = u.close config arrays.length := by
  unfold inBatch
  rw [Analysis.begin_eq_ok_iff.mpr ⟨hb, rfl⟩]
  dsimp only
  rw [hl]

theorem Analysis.workingSet_of_arch (harch : h.arch = some arch) :
    h.workingSet = .ok (WorkingSet.ofRegions h.segmentRegions h.sections) := by
  unfold Analysis.workingSet
  rw [harch]

/-- A run that is not found cancelled before its batch opens one. -/
theorem CodeRun.run_eq_inBatch (harch : h.arch = some arch)
    (hc : ∀ n, cancellation = some n → 2 ≤ n) :
    run config cancellation h = inBatch config (candidates h)
      ⟨h, { mode := .code },
        ⟨cancellation, [⟨.scanningArrays, 0, 1⟩, ⟨.classifyingRegions, 0, 1⟩]⟩⟩ := by
  have hfirst : Watch.stops ⟨cancellation, []⟩ = false :=
    Watch.not_stops fun n hn => Nat.lt_of_lt_of_le Nat.zero_lt_two (hc n hn)
  have hsecond : Watch.stops ⟨cancellation, [⟨.classifyingRegions, 0, 1⟩]⟩ = false :=
    Watch.not_stops hc
  unfold run
  dsimp only [RunState.pass, Watch.pass]
  rw [hfirst, if_neg Bool.false_ne_true, Analysis.workingSet_of_arch harch]
  dsimp only
  rw [hsecond, if_neg Bool.false_ne_true]
  rfl

/-- A run that is found cancelled before its batch does nothing. -/
theorem CodeRun.run_of_lt_two (harch : h.arch = some arch) (hn : n < 2) :
    (run config (some n) h).result = .ok { mode := .code, status := .cancelled } ∧
      (run config (some n) h).analysis = h := by
  have hsecond : Watch.stops ⟨some n, [⟨.classifyingRegions, 0, 1⟩]⟩ = true :=
    Watch.stops_of_le rfl (Nat.le_of_lt_succ hn)
  unfold run
  rw [Analysis.workingSet_of_arch harch]
  dsimp only [RunState.pass, Watch.pass]
  rw [hsecond, if_pos rfl]
  split
  · exact ⟨rfl, rfl⟩
  · exact ⟨rfl, rfl⟩

/-- A code run that nobody cancels comes to the end of its arrays. -/
theorem CodeRun.run_none (config : RecoveryConfig) (harch : h.arch = some arch)
    (hb : h.batch = none) :
    ∃ s, loop (candidates h).length 0 (candidates h) (h.opened .code) = .ok s ∧
      run config none h = s.close config (candidates h).length := by
  have hnever : ∀ n, (none : Cancellation) = some n → 2 ≤ n := fun n hn => nomatch hn
  obtain ⟨s, hl, -, -⟩ := exists_loop_eq_ok (candidates h).length 0 (candidates h)
    (s := h.opened .code) rfl
  refine ⟨s, hl, ?_⟩
  rw [run_eq_inBatch harch hnever]
  exact inBatch_of_loop hb hl

/-- A code run has a result only if the architecture is known and no batch is open. -/
theorem CodeRun.run_none_eq_ok (hr : (run config none h).result = .ok result) :
    (∃ arch, h.arch = some arch) ∧ h.batch = none := by
  cases harch : h.arch with
  | none =>
    have hset : h.workingSet = .error .unknownArchitecture := by
      unfold Analysis.workingSet
      rw [harch]
    unfold run at hr
    rw [hset] at hr
    cases hr
  | some arch =>
    have hnever : ∀ n, (none : Cancellation) = some n → 2 ≤ n := fun n hn => nomatch hn
    rw [run_eq_inBatch harch hnever] at hr
    unfold inBatch at hr
    split at hr
    · cases hr
    · rename_i h1 hbegin
      exact ⟨⟨arch, rfl⟩, (Analysis.begin_eq_ok_iff.mp hbegin).1⟩

end Runs
end SliceRecovery
