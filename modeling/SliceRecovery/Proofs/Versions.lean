import SliceRecovery.Proofs.Upgrading

/-!
# SliceRecovery.Proofs.Versions -- what becomes of a store of any version

The stores that releases left are upgraded as a whole (`Upgrading`). Here nothing is assumed of a
store: `migrate_eq` says for every version and every set of tables what opening comes to.

Two things are not as the range of supported versions has it. Only versions above the range are
refused; one below it is taken for a version in front of the tables of details. And steps are kept
when a later one fails: where the version says that there is a table of runs and there is none, the
tables of details are made before the missing table is noticed. `Halfway` describes these stores, and
they are the only ones of which an opening that fails does not leave everything as it was.
-/

namespace SliceRecovery.Store

variable {s : Store}

/-- Opening either succeeds and ends at the current version, or leaves the store as it was. -/
def AllOrNothing (s : Store) : Prop :=
  (∃ s', s.migrate = (none, s') ∧ s'.version = currentVersion) ∨ ∃ e, s.migrate = (some e, s)

/-- There is no table of runs, although the version says that there is one, and the tables of
details are still to be made. -/
def Halfway (s : Store) : Prop := s.runs = none ∧ s.version ≠ 0 ∧ s.version < 2

instance : DecidablePred Halfway := fun s =>
  decidable_of_iff (s.runs.isNone ∧ s.version ≠ 0 ∧ s.version < 2) (by
    unfold Halfway
    rw [Option.isNone_iff_eq_none])

/-! ## The steps on an older store -/

/-- The first two steps: the tables that the version calls for. -/
def withTables (s : Store) : Store :=
  if s.version = 0 then s.createRuns.createDetails
  else if s.version < 2 then s.createDetails
  else s

/-- The first two steps never fail. -/
theorem upgrade_tables (s : Store) (steps : List UpgradeStep) :
    s.upgrade (.runs :: .details :: steps) = s.withTables.upgrade steps := by
  unfold withTables
  by_cases h0 : s.version = 0
  · have hruns : UpgradeStep.runs.take s = .ok s.createRuns := congrArg Except.ok (if_pos h0)
    have hdetails : UpgradeStep.details.take s.createRuns = .ok s.createRuns.createDetails := rfl
    rw [if_pos h0, upgrade_of_ok hruns, upgrade_of_ok hdetails]
  · have hruns : UpgradeStep.runs.take s = .ok s := congrArg Except.ok (if_neg h0)
    rw [if_neg h0, upgrade_of_ok hruns]
    by_cases h2 : s.version < 2
    · have hdetails : UpgradeStep.details.take s = .ok s.createDetails :=
        congrArg Except.ok (if_pos h2)
      rw [if_pos h2, upgrade_of_ok hdetails]
    · have hdetails : UpgradeStep.details.take s = .ok s := congrArg Except.ok (if_neg h2)
      rw [if_neg h2, upgrade_of_ok hdetails]

/-- The last two steps fail only for want of a table of runs, and then change nothing. -/
theorem upgrade_column (h : s.version < currentVersion) :
    s.upgrade [.errorColumn, .version] =
      match s.runs with
      | none => (some (.noTable TableName.runs.label), s)
      | some t => (none, { s with runs := some t.current, version := currentVersion }) := by
  have hversion : ∀ r : Store, r.version = s.version →
      r.upgrade [.version] = (none, { r with version := currentVersion }) := by
    intro r hr
    unfold upgrade UpgradeStep.take
    rw [hr, if_pos h]
    rfl
  cases hruns : s.runs with
  | none =>
    refine upgrade_of_error ?_ _
    unfold UpgradeStep.take hasErrorColumn addErrorColumn
    rw [hruns, decide_eq_true h]
    rfl
  | some t =>
    dsimp only
    unfold RunTable.current
    cases hcolumn : t.hasError with
    | true =>
      -- the column is there, so the step has nothing to do
      have htake : UpgradeStep.errorColumn.take s = .ok s := by
        unfold UpgradeStep.take hasErrorColumn
        rw [hruns, decide_eq_true h]
        show (if (true && !t.hasError) = true then s.addErrorColumn else Except.ok s) = _
        rw [hcolumn]
        rfl
      rw [upgrade_of_ok htake, hversion s rfl, if_pos rfl, ← hruns]
    | false =>
      have htake : UpgradeStep.errorColumn.take s =
          .ok { s with runs := some t.withErrorColumn } := by
        unfold UpgradeStep.take hasErrorColumn
        rw [hruns, decide_eq_true h]
        show (if (true && !t.hasError) = true then s.addErrorColumn else Except.ok s) = _
        rw [hcolumn]
        exact UpgradeStep.addErrorColumn_eq_ok_iff.mpr ⟨t, hruns, hcolumn, rfl⟩
      rw [upgrade_of_ok htake]
      exact hversion _ rfl

/-! ## Opening -/

theorem version_withTables (h : s.version < currentVersion) :
    s.withTables.version < currentVersion := by
  unfold withTables
  split
  · show (2 : Int) < 3
    decide
  · split
    · show (2 : Int) < 3
      decide
    · exact h

/-- A table of runs is made for version 0 only. -/
theorem runs_withTables :
    s.withTables.runs = if s.version = 0 then some (s.runs.getD .empty) else s.runs := by
  unfold withTables
  split
  · rfl
  · split <;> rfl

/-- **What opening comes to.** A store of a later version is refused, one of the current version is
left alone, and of an older one the tables are made that its version calls for; if there is no table
of runs then, opening fails and keeps them. -/
theorem migrate_eq (s : Store) :
    s.migrate =
      if currentVersion < s.version then (some (.unsupportedVersion s.version), s)
      else if s.version = currentVersion then (none, s)
      else match s.withTables.runs with
        | none => (some (.noTable TableName.runs.label), s.withTables)
        | some t =>
          (none, { s.withTables with runs := some t.current, version := currentVersion }) := by
  unfold migrate
  by_cases hlater : currentVersion < s.version
  · rw [if_pos hlater, if_pos hlater]
  rw [if_neg hlater, if_neg hlater]
  by_cases hcurrent : s.version = currentVersion
  · -- every step has nothing to do
    have hsettled : ∀ step ∈ UpgradeStep.all, step.Settled s :=
      fun _ _ => UpgradeStep.settled_of_le (Int.le_of_eq hcurrent.symm)
    rw [if_pos hcurrent, ← List.append_nil UpgradeStep.all, s.upgrade_append _ [] hsettled]
    rfl
  · have hlt : s.version < currentVersion := by
      show s.version < 3
      have hle : s.version ≤ 3 := Int.not_lt.mp hlater
      have hne : s.version ≠ 3 := hcurrent
      omega
    rw [if_neg hcurrent, UpgradeStep.all, upgrade_tables, upgrade_column (version_withTables hlt)]

/-! ## All or nothing -/

/-- Making the tables of details is a change: the version is another one afterwards. -/
theorem createDetails_ne (h : s.version < 2) : s.createDetails ≠ s := by
  intro heq
  have hversion : (2 : Int) = s.version := congrArg Store.version heq
  omega

/-- Where a table of runs is missing after the first steps and the store is not one that is upgraded
halfway, these steps did nothing. -/
theorem withTables_eq_self (h : ¬ s.Halfway) (hruns : s.withTables.runs = none) :
    s.withTables = s := by
  rw [runs_withTables] at hruns
  split at hruns
  · cases hruns
  · rename_i h0
    have h2 : ¬ s.version < 2 := fun h2 => h ⟨hruns, h0, h2⟩
    unfold withTables
    rw [if_neg h0, if_neg h2]

/-- A store that is upgraded halfway ends with tables of details and without one of runs. -/
theorem Halfway.migrate_eq (h : s.Halfway) :
    s.migrate = (some (.noTable TableName.runs.label), s.createDetails) := by
  obtain ⟨hruns, h0, h2⟩ := h
  have htables : s.withTables = s.createDetails := by
    unfold withTables
    rw [if_neg h0, if_pos h2]
  have hnone : s.createDetails.runs = none := hruns
  have hle : ¬ currentVersion < s.version := by
    show ¬ 3 < s.version
    omega
  have hne : s.version ≠ currentVersion := by
    show s.version ≠ 3
    omega
  rw [s.migrate_eq, if_neg hle, if_neg hne, htables, hnone]

theorem allOrNothing_iff : s.AllOrNothing ↔ ¬ s.Halfway := by
  constructor
  · intro hall hhalf
    unfold AllOrNothing at hall
    rw [hhalf.migrate_eq] at hall
    rcases hall with ⟨s', h, -⟩ | ⟨e, h⟩
    · cases h
    · exact createDetails_ne hhalf.2.2 (congrArg Prod.snd h)
  · intro hnot
    unfold AllOrNothing
    rw [s.migrate_eq]
    split
    · exact Or.inr ⟨_, rfl⟩
    · split
      · rename_i hcurrent
        exact Or.inl ⟨s, rfl, hcurrent⟩
      · split
        · rename_i hle hne hruns
          -- no table was made, so nothing was changed
          have htables : s.withTables = s := withTables_eq_self hnot hruns
          rw [htables]
          exact Or.inr ⟨_, rfl⟩
        · exact Or.inl ⟨_, rfl, rfl⟩

/-- Only versions above the supported ones are refused. -/
theorem migrate_eq_unsupported_iff {v : Int} :
    s.migrate.1 = some (.unsupportedVersion v) ↔ currentVersion < s.version ∧ v = s.version := by
  rw [s.migrate_eq]
  split
  · rename_i hlater
    simp [hlater, eq_comm]
  · rename_i hle
    split
    · simp [hle]
    · split <;> simp [hle]

/-- A version below the supported ones does not keep a store with a table of runs from being
upgraded. -/
theorem migrate_of_negative {t : RunTable} (h : s.version < 0) (hruns : s.runs = some t) :
    s.migrate = (none, s.current) := by
  have htables : s.withTables = s.createDetails := by
    unfold withTables
    rw [if_neg (Int.ne_of_lt h), if_pos (Int.lt_trans h (by decide))]
  have hsome : s.createDetails.runs = some t := hruns
  have hle : ¬ currentVersion < s.version := by
    show ¬ 3 < s.version
    omega
  have hne : s.version ≠ currentVersion := by
    show s.version ≠ 3
    omega
  rw [s.migrate_eq, if_neg hle, if_neg hne, htables, hsome]
  unfold current
  rw [hruns]
  rfl

/-- **Opening is all or nothing, unless it stops halfway.** Whatever the version and the tables of a
store: opening it succeeds and ends at the current version, or fails and leaves everything as it was,
unless the version calls for tables of details and for a table of runs that is not there; then the
tables of details are made and stay. Exactly the versions above the supported ones are refused. One
below them is upgraded if there is a table of runs. -/
theorem openings_all_or_nothing (s : Store) :
    (s.AllOrNothing ↔ ¬ s.Halfway) ∧
      (s.Halfway → s.migrate = (some (.noTable TableName.runs.label), s.createDetails)) ∧
      (∀ v, s.migrate.1 = some (.unsupportedVersion v) ↔
        currentVersion < s.version ∧ v = s.version) ∧
      ∀ t, s.version < 0 → s.runs = some t → s.migrate = (none, s.current) :=
  ⟨allOrNothing_iff, Halfway.migrate_eq, fun _ => migrate_eq_unsupported_iff,
    fun _ => migrate_of_negative⟩

/-- An empty store with a version below the supported ones. -/
def belowVersions : Store := { version := -1 }

/-- The store ends with tables of details and version 2. -/
theorem halfway_belowVersions :
    belowVersions.Halfway ∧
      belowVersions.migrate =
        (some (.noTable "recovery_runs"), belowVersions.createDetails) :=
  ⟨by decide, (openings_all_or_nothing belowVersions).2.1 (by decide)⟩

/-- The version below the supported ones is not refused, and the store is not left as it was. -/
theorem not_refused_belowVersions :
    ¬ belowVersions.AllOrNothing ∧
      belowVersions.migrate ≠ (some (.unsupportedVersion (-1)), belowVersions) := by
  have hhalf : belowVersions.Halfway := by decide
  refine ⟨fun hall => allOrNothing_iff.mp hall hhalf, ?_⟩
  rw [hhalf.migrate_eq]
  simp

/-! ## What opening keeps -/

/-- What a store holds is in another one: its runs, to which a column for messages was added at most,
and their details. -/
structure Keeps (s s' : Store) : Prop where
  runs : ∀ t, s.runs = some t → s'.runs = some t ∨ s'.runs = some t.current
  slices : ∀ a, s.slices = some a → s'.slices = some a
  resized : ∀ b, s.resized = some b → s'.resized = some b
  rejections : ∀ c, s.rejections = some c → s'.rejections = some c

theorem Keeps.refl (s : Store) : s.Keeps s :=
  ⟨fun _ => Or.inl, fun _ => id, fun _ => id, fun _ => id⟩

/-- A table of details that is there is left alone by the first steps. -/
theorem detail_withTables {α : Type} (table : Store → Option α) (empty : α)
    (hruns : ∀ s, table (createRuns s) = table s)
    (hdetails : ∀ s, table (createDetails s) = some ((table s).getD empty)) {a : α}
    (ha : table s = some a) : table s.withTables = some a := by
  unfold withTables
  split
  · rw [hdetails, hruns, ha, Option.getD_some]
  · split
    · rw [hdetails, ha, Option.getD_some]
    · exact ha

/-- The first steps make the tables that are missing and leave the others alone. -/
theorem keeps_withTables (s : Store) : s.Keeps s.withTables where
  runs t ht := by
    rw [runs_withTables, ht]
    split <;> exact Or.inl rfl
  slices _ := detail_withTables slices .empty (fun _ => rfl) fun _ => rfl
  resized _ := detail_withTables resized .empty (fun _ => rfl) fun _ => rfl
  rejections _ := detail_withTables rejections .empty (fun _ => rfl) fun _ => rfl

/-- Opening keeps what a store holds, also when it fails. -/
theorem keeps_migrate (s : Store) : s.Keeps s.migrate.2 := by
  rw [s.migrate_eq]
  split
  · exact .refl s
  split
  · exact .refl s
  obtain ⟨hruns, hslices, hresized, hrejections⟩ := s.keeps_withTables
  split
  · exact ⟨hruns, hslices, hresized, hrejections⟩
  · rename_i t ht
    refine ⟨fun u hu => Or.inr ?_, hslices, hresized, hrejections⟩
    rw [runs_withTables, hu] at ht
    have heq : t = u := by
      split at ht <;> exact (Option.some.inj ht).symm
    rw [heq]

/-- Tables are not made without a new version. -/
theorem withTables_eq_of_version (h : s.withTables.version = s.version) : s.withTables = s := by
  unfold withTables at h ⊢
  split at h
  · rename_i h0
    rw [h0] at h
    cases h
  rename_i h0
  rw [if_neg h0]
  split at h
  · rename_i h2
    rw [← h] at h2
    exact absurd h2 (show ¬ (2 : Int) < 2 by decide)
  · rename_i h2
    rw [if_neg h2]

/-- A store whose version stays is left alone. -/
theorem migrate_eq_self (h : s.migrate.2.version = s.version) : s.migrate.2 = s := by
  rw [s.migrate_eq] at h ⊢
  split at h
  · rename_i hlater
    rw [if_pos hlater]
  rename_i hle
  rw [if_neg hle]
  split at h
  · rename_i hcurrent
    rw [if_pos hcurrent]
  rename_i hne
  rw [if_neg hne]
  split at h
  · exact withTables_eq_of_version h
  · exact absurd h.symm hne

end SliceRecovery.Store
