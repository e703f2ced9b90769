import SliceRecovery.History.Store

/-!
# SliceRecovery.Proofs.Upgrading -- an upgrade that is cut short is taken up again

Every step of an upgrade looks at the store before it does anything. Once it was taken it has
nothing left to do, and no other step gives it anything to do again. So a store in which an upgrade
stopped anywhere is upgraded to the same store as the one that the upgrade began with, or refused
for the same reason; this needs no condition on the store. What is special about the stores that
releases left is only that no step fails on them: a table of runs is there by the time the column is
added to it.
-/

namespace SliceRecovery

namespace UpgradeStep

variable {s s' : Store} {step other : UpgradeStep}

/-! ## What a step does -/

theorem addErrorColumn_eq_ok_iff :
    s.addErrorColumn = .ok s' ↔
      ∃ t, s.runs = some t ∧ t.hasError = false ∧
        s' = { s with runs := some t.withErrorColumn } := by
  unfold Store.addErrorColumn
  constructor
  · intro h
    split at h
    · cases h
    · rename_i t hr
      split at h
      · cases h
      · rename_i hc
        cases h
        exact ⟨t, hr, Bool.not_eq_true _ ▸ hc, rfl⟩
  · rintro ⟨t, hr, hc, rfl⟩
    rw [hr]
    dsimp only
    rw [hc, if_neg Bool.false_ne_true]

/-- A step that does not fail leaves the store alone or does what it is for. -/
theorem take_eq_ok (ht : step.take s = .ok s') :
    s' = s ∨
      step = runs ∧ s.version = 0 ∧ s' = s.createRuns ∨
      step = details ∧ s.version < 2 ∧ s' = s.createDetails ∨
      (step = errorColumn ∧ ∃ t, s.runs = some t ∧ t.hasError = false ∧
        s' = { s with runs := some t.withErrorColumn }) ∨
      step = version ∧ s.version < 3 ∧ s' = { s with version := 3 } := by
  cases step with
  | runs =>
    cases ht
    split
    · rename_i hv
      exact Or.inr (Or.inl ⟨rfl, hv, rfl⟩)
    · exact Or.inl rfl
  | details =>
    cases ht
    split
    · rename_i hv
      exact Or.inr (Or.inr (Or.inl ⟨rfl, hv, rfl⟩))
    · exact Or.inl rfl
  | errorColumn =>
    dsimp only [take] at ht
    split at ht
    · exact Or.inr (Or.inr (Or.inr (Or.inl ⟨rfl, addErrorColumn_eq_ok_iff.mp ht⟩)))
    · cases ht
      exact Or.inl rfl
  | version =>
    cases ht
    split
    · rename_i hv
      exact Or.inr (Or.inr (Or.inr (Or.inr ⟨rfl, hv, rfl⟩)))
    · exact Or.inl rfl

/-- No step lowers the version or gives it the value zero. -/
theorem version_of_take (ht : step.take s = .ok s') :
    s.version ≤ s'.version ∧ (s.version ≠ 0 → s'.version ≠ 0) := by
  obtain rfl | ⟨-, hv, rfl⟩ | ⟨-, hv, rfl⟩ | ⟨-, t, -, -, rfl⟩ | ⟨-, hv, rfl⟩ := take_eq_ok ht
  · exact ⟨Int.le_refl _, id⟩
  · show s.version ≤ 1 ∧ (s.version ≠ 0 → (1 : Int) ≠ 0)
    omega
  · show s.version ≤ 2 ∧ (s.version ≠ 0 → (2 : Int) ≠ 0)
    omega
  · exact ⟨Int.le_refl _, id⟩
  · show s.version ≤ 3 ∧ (s.version ≠ 0 → (3 : Int) ≠ 0)
    omega

/-- No step removes the column for messages. -/
theorem hasErrorColumn_of_take (ht : step.take s = .ok s') (hc : s.hasErrorColumn = true) :
    s'.hasErrorColumn = true := by
  obtain rfl | ⟨-, -, rfl⟩ | ⟨-, -, rfl⟩ | ⟨-, t, -, -, rfl⟩ | ⟨-, -, rfl⟩ := take_eq_ok ht
  · exact hc
  · unfold Store.hasErrorColumn at hc ⊢
    unfold Store.createRuns
    cases hr : s.runs with
    | none =>
      rw [hr] at hc
      cases hc
    | some t =>
      rw [hr] at hc
      exact hc
  · exact hc
  · rfl
  · exact hc

/-! ## Steps that have nothing to do -/

/-- A step has nothing to do. -/
def Settled (s : Store) (step : UpgradeStep) : Prop := step.take s = .ok s

/-- When the steps have nothing to do. -/
theorem settled_iff :
    Settled s step ↔
      match step with
      | runs => s.version ≠ 0
      | details => 2 ≤ s.version
      | errorColumn => s.version < 3 → s.hasErrorColumn = true
      | version => 3 ≤ s.version := by
  cases step with
  | runs =>
    show Except.ok (if s.version = 0 then s.createRuns else s) = .ok s ↔ s.version ≠ 0
    constructor
    · intro h hv
      rw [if_pos hv] at h
      have h : (1 : Int) = s.version := congrArg Store.version (Except.ok.inj h)
      omega
    · intro hv
      rw [if_neg hv]
  | details =>
    show Except.ok (if s.version < 2 then s.createDetails else s) = .ok s ↔ 2 ≤ s.version
    constructor
    · intro h
      refine Int.not_lt.mp fun hv => ?_
      rw [if_pos hv] at h
      have h : (2 : Int) = s.version := congrArg Store.version (Except.ok.inj h)
      omega
    · intro hv
      rw [if_neg (Int.not_lt.mpr hv)]
  | errorColumn =>
    show (if s.version < 3 && !s.hasErrorColumn then s.addErrorColumn else .ok s) = .ok s ↔
      (s.version < 3 → s.hasErrorColumn = true)
    constructor
    · intro h hv
      cases hc : s.hasErrorColumn with
      | true => rfl
      | false =>
        -- adding the column changes the table, so it would not leave the store as it is
        rw [hc, decide_eq_true hv, if_pos (by rfl)] at h
        obtain ⟨t, hr, ht, hs⟩ := addErrorColumn_eq_ok_iff.mp h
        have hsame : s.runs = some t.withErrorColumn := congrArg Store.runs hs
        rw [hr] at hsame
        rw [Option.some.inj hsame] at ht
        cases ht
    · intro h
      rw [if_neg]
      intro hc
      obtain ⟨hv, hno⟩ := Bool.and_eq_true_iff.mp hc
      rw [h (of_decide_eq_true hv)] at hno
      cases hno
  | version =>
    show Except.ok (if s.version < 3 then { s with version := 3 } else s) = .ok s ↔ 3 ≤ s.version
    constructor
    · intro h
      refine Int.not_lt.mp fun hv => ?_
      rw [if_pos hv] at h
      have h : (3 : Int) = s.version := congrArg Store.version (Except.ok.inj h)
      omega
    · intro hv
      rw [if_neg (Int.not_lt.mpr hv)]

/-- No step has anything to do from the current version on. -/
theorem settled_of_le (h : Store.currentVersion ≤ s.version) : Settled s step := by
  have h : (3 : Int) ≤ s.version := h
  refine settled_iff.mpr ?_
  cases step with
  | runs =>
    dsimp only
    omega
  | details =>
    dsimp only
    omega
  | errorColumn => exact fun hv => absurd hv (Int.not_lt.mpr h)
  | version => exact h

/-- After a step it has nothing to do. -/
theorem settled_of_take (ht : step.take s = .ok s') : Settled s' step := by
  obtain rfl | ⟨rfl, -, rfl⟩ | ⟨rfl, -, rfl⟩ | ⟨rfl, t, -, -, rfl⟩ | ⟨rfl, -, rfl⟩ := take_eq_ok ht
  · exact ht
  · exact settled_iff.mpr (by decide : (1 : Int) ≠ 0)
  · exact settled_iff.mpr (by decide : (2 : Int) ≤ 2)
  · exact settled_iff.mpr fun _ => rfl
  · exact settled_iff.mpr (by decide : (3 : Int) ≤ 3)

/-- No step gives another one anything to do. -/
theorem Settled.of_take (h : Settled s other) (ht : step.take s = .ok s') : Settled s' other := by
  obtain ⟨hle, hne⟩ := version_of_take ht
  have h := settled_iff.mp h
  refine settled_iff.mpr ?_
  cases other with
  | runs => exact hne h
  | details => exact Int.le_trans h hle
  | errorColumn => exact fun hv => hasErrorColumn_of_take ht (h (Int.lt_of_le_of_lt hle hv))
  | version => exact Int.le_trans h hle

end UpgradeStep

/-! ## Upgrades -/

namespace Store

variable {s s' : Store} {step : UpgradeStep} {e : StoreError}

theorem upgrade_of_ok (ht : step.take s = .ok s') (steps : List UpgradeStep) :
    s.upgrade (step :: steps) = s'.upgrade steps := by
  rw [upgrade, ht]

theorem upgrade_of_error (ht : step.take s = .error e) (steps : List UpgradeStep) :
    s.upgrade (step :: steps) = (some e, s) := by
  rw [upgrade, ht]

/-- Steps that have nothing to do make no difference. -/
theorem upgrade_append (s : Store) (done rest : List UpgradeStep)
    (h : ∀ step ∈ done, step.Settled s) : s.upgrade (done ++ rest) = s.upgrade rest := by
  induction done with
  | nil => rfl
  | cons step done ih =>
    rw [List.cons_append, upgrade_of_ok (h step List.mem_cons_self)]
    exact ih fun other ho => h other (List.mem_cons_of_mem _ ho)

/-- An upgrade that stopped after some steps and begins anew goes on where it stopped. -/
theorem upgrade_resumed (done steps rest : List UpgradeStep) (h : ∀ step ∈ done, step.Settled s) :
    (s.upgrade steps).2.upgrade (done ++ steps ++ rest) = s.upgrade (steps ++ rest) := by
  induction steps generalizing s done with
  | nil =>
    rw [List.append_nil]
    exact s.upgrade_append done rest h
  | cons step steps ih =>
    cases ht : step.take s with
    | ok s1 =>
      have hsplit : done ++ step :: steps ++ rest = done ++ [step] ++ steps ++ rest := by
        rw [List.append_cons]
      rw [upgrade_of_ok ht, List.cons_append, upgrade_of_ok ht, hsplit]
      refine ih (done ++ [step]) fun other ho => ?_
      rcases List.mem_append.mp ho with ho | ho
      · exact (h other ho).of_take ht
      · rw [List.mem_singleton.mp ho]
        exact UpgradeStep.settled_of_take ht
    | error e =>
      -- the step fails again, and what was taken before it has nothing to do
      rw [upgrade_of_error ht, List.cons_append, upgrade_of_error ht, List.append_assoc,
        upgrade_append s done _ h, List.cons_append, upgrade_of_error ht]

/-- No upgrade goes beyond the current version. -/
theorem version_upgrade_le (s : Store) (steps : List UpgradeStep) (h : s.version ≤ currentVersion) :
    (s.upgrade steps).2.version ≤ currentVersion := by
  induction steps generalizing s with
  | nil => exact h
  | cons step steps ih =>
    cases ht : step.take s with
    | error e =>
      rw [upgrade_of_error ht]
      exact h
    | ok s1 =>
      rw [upgrade_of_ok ht]
      apply ih
      obtain rfl | ⟨-, -, rfl⟩ | ⟨-, -, rfl⟩ | ⟨-, t, -, -, rfl⟩ | ⟨-, -, rfl⟩ :=
        UpgradeStep.take_eq_ok ht
      · exact h
      · show (1 : Int) ≤ 3
        decide
      · show (2 : Int) ≤ 3
        decide
      · exact h
      · exact Int.le_refl _

/-- Nothing is done to a store of a later version. -/
theorem upgrade_of_lt (s : Store) (steps : List UpgradeStep) (h : currentVersion < s.version) :
    s.upgrade steps = (none, s) := by
  rw [← List.append_nil steps]
  exact s.upgrade_append steps [] fun _ _ => UpgradeStep.settled_of_le (Int.le_of_lt h)

/-- **An upgrade can be cut short.** Whatever the store: wherever an upgrade of it stopped, the next
one comes to what this one would have come to. -/
theorem migrate_upgrade_take (s : Store) (n : Nat) :
    (s.upgrade (UpgradeStep.all.take n)).2.migrate = s.migrate := by
  by_cases hv : currentVersion < s.version
  · rw [upgrade_of_lt s _ hv]
  · have hle : s.version ≤ currentVersion := Int.not_lt.mp hv
    unfold migrate
    rw [if_neg hv, if_neg (Int.not_lt.mpr (s.version_upgrade_le _ hle))]
    have hresumed := s.upgrade_resumed [] (UpgradeStep.all.take n) (UpgradeStep.all.drop n)
      (fun _ h => nomatch h)
    rwa [List.nil_append, List.take_append_drop] at hresumed

/-- A store that was upgraded is left alone by the next upgrade. -/
theorem migrate_migrate (h : s.migrate = (none, s')) : s'.migrate = (none, s') := by
  have hresumed := s.migrate_upgrade_take UpgradeStep.all.length
  rw [List.take_length] at hresumed
  unfold migrate at h
  split at h
  · cases h
  · rw [h] at hresumed
    rw [hresumed]
    unfold migrate
    rwa [if_neg]
    assumption

end Store

/-! ## Stores that releases left -/

namespace RunTable

/-- The table with a column for messages: as it is if it has one. -/
def current (t : RunTable) : RunTable := if t.hasError then t else t.withErrorColumn

theorem current_withErrorColumn {t : RunTable} (h : t.hasError = false) :
    t.withErrorColumn.current = t.current := by
  unfold current
  rw [h, if_neg Bool.false_ne_true]
  exact if_pos rfl

end RunTable

namespace Store

variable {s s' : Store} {step : UpgradeStep}

/-- The store in the current schema: what is there stays and what is missing is made. -/
def current (s : Store) : Store where
  version := currentVersion
  runs := some (s.runs.getD .empty).current
  slices := some (s.slices.getD OrderedMap.empty)
  resized := some (s.resized.getD OrderedMap.empty)
  rejections := some (s.rejections.getD OrderedMap.empty)

/-- No step changes what the store is in the current schema. -/
theorem current_of_take (ht : step.take s = .ok s') : s'.current = s.current := by
  obtain rfl | ⟨-, -, rfl⟩ | ⟨-, -, rfl⟩ | ⟨-, t, hr, hc, rfl⟩ | ⟨-, -, rfl⟩ :=
    UpgradeStep.take_eq_ok ht
  · rfl
  · rfl
  · rfl
  · unfold current
    rw [hr]
    dsimp only [Option.getD_some]
    rw [RunTable.current_withErrorColumn hc]
  · rfl

theorem current_upgrade (s : Store) (steps : List UpgradeStep) :
    (s.upgrade steps).2.current = s.current := by
  induction steps generalizing s with
  | nil => rfl
  | cons step steps ih =>
    cases ht : step.take s with
    | error e => rw [upgrade_of_error ht]
    | ok s1 => rw [upgrade_of_ok ht, ih s1, current_of_take ht]

/-- A store as a release left it, with the tables of a version, that version and any rows. -/
inductive Released : Store → Prop
  | none : Released {}
  | runs (t : RunTable) (h : t.hasError = false) : Released { version := 1, runs := some t }
  | details (t : RunTable) (a : DetailTable SliceRow) (b : DetailTable ResizeRow)
      (c : DetailTable RejectionRow) (h : t.hasError = false) :
      Released ⟨2, some t, some a, some b, some c⟩
  | messages (t : RunTable) (a : DetailTable SliceRow) (b : DetailTable ResizeRow)
      (c : DetailTable RejectionRow) (h : t.hasError = true) :
      Released ⟨3, some t, some a, some b, some c⟩

/-- A store that a release left is brought into the current schema. -/
theorem Released.migrate_eq (h : Released s) : s.migrate = (Option.none, s.current) := by
  cases h with
  | none => rfl
  | runs t h =>
    obtain ⟨hasError, rows, lastId⟩ := t
    cases h
    rfl
  | details t a b c h =>
    obtain ⟨hasError, rows, lastId⟩ := t
    cases h
    rfl
  | messages t a b c h =>
    obtain ⟨hasError, rows, lastId⟩ := t
    cases h
    rfl

/-- What an upgrade makes of a store: the tables of version 3, of which those that were there have
kept their rows. -/
structure Upgraded (s s' : Store) : Prop where
  version_eq : s'.version = 3
  /-- The runs have the column for messages. -/
  runs : ∃ t', s'.runs = some t' ∧ t'.hasError = true ∧
    (s.runs = none → t'.rows = []) ∧
    -- the column is empty in the rows of a table that had none
    ∀ t, s.runs = some t → t'.lastId = t.lastId ∧
      t'.rows = if t.hasError then t.rows else t.rows.map fun r => { r with error := none }
  slices : ∃ a', s'.slices = some a' ∧ (s.slices = none → a'.values = []) ∧
    ∀ a, s.slices = some a → a' = a
  resized : ∃ b', s'.resized = some b' ∧ (s.resized = none → b'.values = []) ∧
    ∀ b, s.resized = some b → b' = b
  rejections : ∃ c', s'.rejections = some c' ∧ (s.rejections = none → c'.values = []) ∧
    ∀ c, s.rejections = some c → c' = c

theorem upgraded_table {ρ : Type} (table : Option (DetailTable ρ)) :
    ∃ a', some (table.getD OrderedMap.empty) = some a' ∧ (table = none → a'.values = []) ∧
      ∀ a, table = some a → a' = a := by
  refine ⟨_, rfl, ?_, ?_⟩
  · rintro rfl
    rfl
  · rintro a rfl
    rfl

theorem upgraded_current (s : Store) : s.Upgraded s.current where
  version_eq := rfl
  runs := by
    refine ⟨_, rfl, ?_, ?_, ?_⟩
    · unfold RunTable.current
      split
      · assumption
      · rfl
    · intro h
      rw [h]
      rfl
    · rintro t h
      rw [h]
      dsimp only [Option.getD_some]
      unfold RunTable.current
      cases t.hasError with
      | true => exact ⟨rfl, rfl⟩
      | false => exact ⟨rfl, rfl⟩
  slices := upgraded_table s.slices
  resized := upgraded_table s.resized
  rejections := upgraded_table s.rejections

/-! ## Upgrades that are cut short -/

/-- The store after upgrades of which each was cut short after so many steps. -/
def interrupted (s : Store) (cuts : List Nat) : Store :=
  cuts.foldl (fun s n => (s.upgrade (UpgradeStep.all.take n)).2) s

theorem migrate_interrupted (s : Store) (cuts : List Nat) :
    (s.interrupted cuts).migrate = s.migrate := by
  induction cuts generalizing s with
  | nil => rfl
  | cons n cuts ih => exact (ih _).trans (s.migrate_upgrade_take n)

theorem current_interrupted (s : Store) (cuts : List Nat) :
    (s.interrupted cuts).current = s.current := by
  induction cuts generalizing s with
  | nil => rfl
  | cons n cuts ih => exact (ih _).trans (s.current_upgrade _)

/-- **Upgrades lose nothing.** Whatever rows a release left, and after whichever steps upgrades of
them stopped: the next one succeeds, keeps every row that was there before any of them, and leaves
nothing for another one to do. -/
theorem migrate_released (h : Released s) (cuts : List Nat) :
    ∃ s', (s.interrupted cuts).migrate = (none, s') ∧ s.Upgraded s' ∧
      (s.interrupted cuts).Upgraded s' ∧ s'.migrate = (none, s') := by
  have hmigrate := h.migrate_eq
  refine ⟨s.current, ?_, s.upgraded_current, ?_, migrate_migrate hmigrate⟩
  · rw [migrate_interrupted, hmigrate]
  · rw [← s.current_interrupted cuts]
    exact upgraded_current _

/-- A run and a slice in the second version of the schema. -/
def ofSecondVersion : Store where
  version := 2
  runs := some ⟨false, [⟨7, "libgame.so", "readonly_data", none, "succeeded", 1, 0, none, "t0",
    "t1"⟩], 7⟩
  slices := some (DetailTable.put SliceRow.pointerAddress 7 OrderedMap.empty
    ⟨0x2000, 0x1000, 5, "hello"⟩)
  resized := some OrderedMap.empty
  rejections := some OrderedMap.empty

/-- The first upgrade stops between the column and the version. -/
theorem migrate_ofSecondVersion :
    ofSecondVersion.Released ∧ (ofSecondVersion.interrupted [3]).version = 2 ∧
      (ofSecondVersion.interrupted [3]).hasErrorColumn = true ∧
      ∃ s', (ofSecondVersion.interrupted [3]).migrate = (none, s') ∧ ofSecondVersion.Upgraded s' ∧
        (ofSecondVersion.interrupted [3]).Upgraded s' ∧ s'.migrate = (none, s') :=
  ⟨.details _ _ _ _ rfl, rfl, rfl, migrate_released (.details _ _ _ _ rfl) [3]⟩

end Store
end SliceRecovery
