import SliceRecovery.Proofs.Journal
import SliceRecovery.Recovery.Run

/-!
# SliceRecovery.Proofs.Ending -- how the two runs open and end their batch

Both runs open one batch and end it in one of two ways: they close it and hand out their result,
or they take it back and hand out the error. What each way leaves is said here once for both.
-/

namespace SliceRecovery

variable {h i j : Analysis} {s : RunState} {e : AnalysisError} {es : List Edit}

namespace Analysis

/-- An open batch can be closed. -/
theorem exists_commit (hopen : h.batch.isSome) : ∃ j, h.commit = .ok j := by
  obtain ⟨es, hes⟩ := Option.isSome_iff_exists.mp hopen
  unfold commit
  rw [hes]
  cases es with
  | nil => exact ⟨_, rfl⟩
  | cons e es => exact ⟨_, rfl⟩

/-- Closing a batch touches nothing but the batch and the history. -/
theorem commit_eq (hj : h.commit = .ok j) :
    j = { h with batch := none, history := j.history } := by
  unfold commit at hj
  split at hj
  · cases hj
  · cases hj
    rfl
  · cases hj
    rfl

/-- What closing a batch leaves, once a run has asked for a pass or not. -/
def afterRun (config : RecoveryConfig) (j : Analysis) : Analysis :=
  if config.requestPass then j.requestPass else j

theorem afterRun_eq (config : RecoveryConfig) (j : Analysis) :
    afterRun config j = { j with passes := (afterRun config j).passes } := by
  unfold afterRun
  split
  · rfl
  · rfl

theorem declared_afterRun (config : RecoveryConfig) (hj : h.commit = .ok j) :
    (afterRun config j).declared = h.declared := by
  rw [afterRun_eq, commit_eq hj]

theorem types_afterRun (config : RecoveryConfig) (hj : h.commit = .ok j) :
    (afterRun config j).types = h.types := by
  rw [afterRun_eq, commit_eq hj]

end Analysis

namespace RunState

theorem close_eq (config : RecoveryConfig) (total : Nat) (hj : s.analysis.commit = .ok j) :
    (s.close config total).result = .ok s.result ∧
      (s.close config total).analysis = Analysis.afterRun config j := by
  unfold close
  dsimp only
  rw [show (s.pass .finishing total total).analysis = s.analysis from rfl, hj]
  exact ⟨rfl, rfl⟩

/-- A run in its open batch can close it, and then hands out its result. -/
theorem exists_close (config : RecoveryConfig) (total : Nat)
    (hs : Analysis.Frame (h.withBatch (some [])) s.analysis) :
    ∃ j, s.analysis.commit = .ok j ∧ (s.close config total).result = .ok s.result ∧
      (s.close config total).analysis = Analysis.afterRun config j := by
  obtain ⟨j, hj⟩ := Analysis.exists_commit (h := s.analysis) (by rw [hs.isOpen]; rfl)
  exact ⟨j, hj, close_eq config total hj⟩

/-- A run that fails while its edits are journalled leaves the analysis in which it opened its
batch. -/
theorem abort_eq (hb : h.batch = none)
    (hi : Analysis.Journals (h.withBatch (some [])) s.analysis es) :
    (s.abort e).result = .error (.analysis e) ∧ (s.abort e).analysis = h := by
  unfold abort
  rw [Analysis.revert_of_journals hb hi]
  exact ⟨rfl, rfl⟩

end RunState
end SliceRecovery
