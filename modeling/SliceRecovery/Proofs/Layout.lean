import SliceRecovery.Proofs.UndoUnits
import SliceRecovery.Proofs.Widths

/-!
# SliceRecovery.Proofs.Layout -- variables that lie apart stay apart

A table of variables is *laid out* when the type of each has a width and no two cover a common
address. A declaration keeps a table so, as it removes what it overlaps. The one thing in a run that
is no declaration is the definition of the slice type; as its name was free, no variable with a width
can have depended on it, and so none changes its range. That is the whole of what a run does, and a
run that is taken back leaves what was there before.
-/

namespace SliceRecovery

/-! ## The slice type -/

/-- The slice type is defined only where its name was free. -/
theorem Analysis.within_ensureSliceType {h : Analysis} {config : RecoveryConfig}
    {arch : Architecture} : TypeTable.Within h.types (h.ensureSliceType config arch).2.types := by
  rw [Analysis.types_ensureSliceType]
  split
  · exact fun _ _ hc => hc
  · rename_i hno
    rw [Analysis.hasType_iff, Option.not_isSome_iff_eq_none] at hno
    exact TypeTable.within_insert hno

/-! ## Ranges -/

namespace Variable

variable {types types' : TypeTable} {u v : Variable}

theorem Overlap.symm (ho : u.Overlap types v) : v.Overlap types u := by
  obtain ⟨a, hu, hv⟩ := ho
  exact ⟨a, hv, hu⟩

instance (types : TypeTable) (u v : Variable) : Decidable (u.Overlap types v) :=
  decidable_of_iff _ Analysis.overlaps_iff

theorem extent_of_within (hwithin : TypeTable.Within types types')
    (hv : (TypeTable.width? types v.type).isSome) :
    Analysis.extent types' v = Analysis.extent types v := by
  obtain ⟨w, hw⟩ := Option.isSome_iff_exists.mp hv
  unfold Analysis.extent
  rw [hw, TypeTable.width?_of_within hwithin hw]

/-- Further definitions do not make variables with a width overlap. -/
theorem Overlap.of_within (hwithin : TypeTable.Within types types')
    (hu : (TypeTable.width? types u.type).isSome) (hv : (TypeTable.width? types v.type).isSome)
    (ho : u.Overlap types' v) : u.Overlap types v := by
  unfold Overlap Covers at ho ⊢
  rwa [extent_of_within hwithin hu, extent_of_within hwithin hv] at ho

end Variable

/-! ## Types that are added -/

namespace TypeTable

/-- **A type that is added changes no known width.** For every table of named types, a name that is
not in it and any definition for that name, which may mention any names: a type whose width is found,
with nesting followed through any number of steps, has the same width afterwards. So a variable whose
type has a width covers as many bytes after the definition as before it, and after the slice type is
made sure of. -/
theorem added_type_keeps_widths {types : TypeTable} {name : String} (c : Composite)
    (hfree : types.get? name = none) :
    (∀ fuel t w, widthWithin? types fuel t = some w →
      widthWithin? (types.insert name c) fuel t = some w) ∧
    (∀ v : Variable, (width? types v.type).isSome →
      Analysis.extent (types.insert name c) v = Analysis.extent types v) ∧
    ∀ (h : Analysis) (v : Variable) config arch, (width? h.types v.type).isSome →
      Analysis.extent (h.ensureSliceType config arch).2.types v = Analysis.extent h.types v := by
  have hwithin : Within types (types.insert name c) := within_insert hfree
  refine ⟨fun fuel t w => ?_, fun v hv => ?_, fun h v config arch hv => ?_⟩
  · exact widthWithin?_of_within hwithin
  · exact Variable.extent_of_within hwithin hv
  · exact Variable.extent_of_within Analysis.within_ensureSliceType hv

/-- Two named types without a width, of which one contains itself and the other a type that is not
defined, and one type that contains neither. -/
def partlyDefined : Analysis where
  segments := []
  types := .ofList [
    ("Half", ⟨true, [⟨"known", .char⟩, ⟨"unknown", .named "Missing"⟩]⟩),
    ("Loop", ⟨true, [⟨"self", .named "Loop"⟩]⟩),
    ("Pair", ⟨false, [⟨"first", .char⟩, ⟨"second", .unsigned 4⟩]⟩)]
  declared := .ofList [⟨0x1000, .named "Pair", some "pair", none⟩]

/-- The missing type contains itself, so that the half defined type remains without a width. -/
theorem widths_partlyDefined :
    let missing : Composite := ⟨true, [⟨"pair", .named "Pair"⟩, ⟨"self", .named "Missing"⟩]⟩
    let types := partlyDefined.types
    let pair : Variable := ⟨0x1000, .named "Pair", some "pair", none⟩
    types.get? "Missing" = none ∧
      widthWithin? types 2 (.named "Pair") = some 8 ∧
      widthWithin? (types.insert "Missing" missing) 2 (.named "Pair") = some 8 ∧
      width? types (.named "Half") = none ∧
      (width? types pair.type).isSome ∧
      Analysis.extent (types.insert "Missing" missing) pair = Analysis.extent types pair ∧
      Analysis.extent (partlyDefined.ensureSliceType {} (.ofWordSize "x86_64" 8 .little)).2.types
        pair = Analysis.extent types pair := by
  intro missing types pair
  have hfree : types.get? "Missing" = none := by decide +kernel
  have hwidth : widthWithin? types 2 (.named "Pair") = some 8 := by decide +kernel
  have hpair : (width? types pair.type).isSome := by decide +kernel
  obtain ⟨hwidths, hextents, hslice⟩ := added_type_keeps_widths missing hfree
  exact ⟨hfree, hwidth, hwidths _ _ _ hwidth, by decide +kernel, hpair, hextents pair hpair,
    hslice partlyDefined pair _ _ hpair⟩

end TypeTable

/-! ## Tables that are laid out -/

/-- The type of every variable has a width, and no two variables overlap. -/
structure VariableTable.LaidOut (types : TypeTable) (t : VariableTable) : Prop where
  sized : ∀ v ∈ t.values, (TypeTable.width? types v.type).isSome
  apart : ∀ u ∈ t.values, ∀ v ∈ t.values, u.address ≠ v.address → ¬ u.Overlap types v

instance (types : TypeTable) : DecidablePred (VariableTable.LaidOut types) := fun t =>
  decidable_of_iff
    ((∀ v ∈ t.values, (TypeTable.width? types v.type).isSome) ∧
      ∀ u ∈ t.values, ∀ v ∈ t.values, u.address ≠ v.address → ¬ u.Overlap types v)
    ⟨fun h => ⟨h.1, h.2⟩, fun h => ⟨h.1, h.2⟩⟩

namespace VariableTable.LaidOut

variable {types types' : TypeTable} {t t' : VariableTable} {h i : Analysis}

/-- A table stays laid out when variables are removed. -/
theorem of_subset (hl : t.LaidOut types) (hsub : ∀ v ∈ t'.values, v ∈ t.values) :
    t'.LaidOut types where
  sized v hv := hl.sized v (hsub v hv)
  apart u hu v hv hne := hl.apart u (hsub u hu) v (hsub v hv) hne

/-- A table stays laid out when names that were free are defined. -/
theorem of_within (hl : t.LaidOut types) (hwithin : TypeTable.Within types types') :
    t.LaidOut types' where
  sized v hv := by
    obtain ⟨w, hw⟩ := Option.isSome_iff_exists.mp (hl.sized v hv)
    rw [TypeTable.width?_of_within hwithin hw]
    rfl
  apart u hu v hv hne ho :=
    hl.apart u hu v hv hne (ho.of_within hwithin (hl.sized u hu) (hl.sized v hv))

theorem evict (hl : h.declared.LaidOut h.types) (a : Address) :
    (h.evict a).declared.LaidOut (h.evict a).types := by
  rw [Analysis.types_evict]
  exact hl.of_subset fun v hv => (Analysis.mem_evict.mp hv).1

/-- A declaration removes what it overlaps. -/
theorem define {a : Address} {type : DataType} {name : Option String}
    (hl : h.declared.LaidOut h.types) (hi : h.define a type name = .ok i) :
    i.declared.LaidOut i.types := by
  rw [Analysis.types_define hi]
  refine ⟨fun v hv => ?_, fun u hu v hv hne ho => ?_⟩
  · rcases (Analysis.mem_define hi).mp hv with rfl | ⟨hv, -⟩
    · exact Analysis.width_of_define hi
    · exact hl.sized v hv
  · -- what is left of the old variables is apart from the new one, as it does not clash with it
    rcases (Analysis.mem_define hi).mp hu with rfl | ⟨hu, hcu⟩
    · rcases (Analysis.mem_define hi).mp hv with rfl | ⟨-, hcv⟩
      · exact hne rfl
      · exact hcv (Or.inr ho.symm)
    · rcases (Analysis.mem_define hi).mp hv with rfl | ⟨hv, -⟩
      · exact hcu (Or.inr ho)
      · exact hl.apart u hu v hv hne ho

theorem ensureSliceType {config : RecoveryConfig} {arch : Architecture}
    (hl : h.declared.LaidOut h.types) :
    (h.ensureSliceType config arch).2.declared.LaidOut
      (h.ensureSliceType config arch).2.types := by
  rw [Analysis.declared_ensureSliceType]
  exact hl.of_within Analysis.within_ensureSliceType

theorem mark {config : RecoveryConfig} {arch : Architecture} {r : SliceRecord}
    (hl : h.declared.LaidOut h.types) (hi : h.mark config arch r = .ok i) :
    i.declared.LaidOut i.types := by
  obtain ⟨m, hm, hi⟩ := Analysis.markSlice_eq_ok_iff.mp hi
  exact ((hl.ensureSliceType.evict r.dataAddress).define hm).define hi

end VariableTable.LaidOut

/-! ## Runs -/

theorem DataRun.Trace.laidOut {config : RecoveryConfig} {arch : Architecture} {h i : Analysis}
    {vs : List Verdict} (ht : Trace config arch h vs i) (hl : h.declared.LaidOut h.types) :
    i.declared.LaidOut i.types := by
  induction ht with
  | nil => exact hl
  | reject _ _ ih => exact ih hl
  | accept _ hm _ ih => exact ih (hl.mark hm)

theorem CodeRun.Trace.laidOut {h i : Analysis} {vs : List Visit} (ht : Trace h vs i)
    (hl : h.declared.LaidOut h.types) : i.declared.LaidOut i.types := by
  induction ht with
  | nil => exact hl
  | keep _ _ ih => exact ih hl
  | resize _ hd _ ih => exact ih (hl.define hd)

section Runs

variable {config : RecoveryConfig} {cancellation : Cancellation} {h : Analysis}

theorem DataRun.laidOut_run (hl : h.declared.LaidOut h.types) :
    (run config cancellation h).analysis.declared.LaidOut
      (run config cancellation h).analysis.types := by
  cases hr : (run config cancellation h).result with
  | error error =>
    rw [run_eq_error hr]
    exact hl
  | ok result =>
    obtain ⟨arch, -, ⟨-, hsame⟩ | ⟨vs, rest, i, j, -, -, ht, -, -, hj, hafter⟩⟩ := run_eq_ok hr
    · rw [hsame]
      exact hl
    · rw [hafter, Analysis.declared_afterRun config hj, Analysis.types_afterRun config hj]
      exact ht.laidOut hl

theorem CodeRun.laidOut_run (hl : h.declared.LaidOut h.types) :
    (run config cancellation h).analysis.declared.LaidOut
      (run config cancellation h).analysis.types := by
  cases hr : (run config cancellation h).result with
  | error error =>
    rw [run_eq_error hr]
    exact hl
  | ok result =>
    obtain ⟨-, hsame⟩ | ⟨vs, rest, i, j, -, -, ht, -, -, hj, hafter⟩ := run_eq_ok hr
    · rw [hsame]
      exact hl
    · rw [hafter, Analysis.declared_afterRun config hj, Analysis.types_afterRun config hj]
      exact ht.laidOut hl

end Runs

namespace Analysis

variable {h : Analysis}

theorem laidOut_perform (hl : h.declared.LaidOut h.types) (q : RunSettings) :
    (h.perform q).declared.LaidOut (h.perform q).types := by
  obtain ⟨mode, config, cancellation⟩ := q
  cases mode with
  | readOnlyData => exact DataRun.laidOut_run hl
  | code => exact CodeRun.laidOut_run hl

theorem laidOut_performAll (hl : h.declared.LaidOut h.types) (qs : List RunSettings) :
    (h.performAll qs).declared.LaidOut (h.performAll qs).types := by
  induction qs generalizing h with
  | nil => exact hl
  | cons q qs ih => exact ih (laidOut_perform hl q)

/-- **Runs never create overlapping declarations.** If every variable has a width and no two
overlap, then the same holds after every run of any sequence of runs, whether they were completed,
cancelled or failed. -/
theorem runs_keep_apart (hl : h.declared.LaidOut h.types) (qs : List RunSettings) (n : Nat) :
    (h.performAll (qs.take n)).declared.LaidOut (h.performAll (qs.take n)).types :=
  laidOut_performAll hl _

/-- A binary with two strings that share bytes, an array that code makes reach over what follows it,
a variable of a named type and one at the largest address. A second named type has no width. -/
def touchingVariables : Analysis where
  arch := some (.ofWordSize "x86_64" 8 .little)
  segments := [
    ⟨{ start := 0x1000, stop := 0x1100, readable := true }, [104, 101, 108, 108, 111]⟩,
    ⟨{ start := 0x2000, stop := 0x2020, readable := true, writable := true },
      [0x00, 0x10, 0, 0, 0, 0, 0, 0, 5, 0, 0, 0, 0, 0, 0, 0,
       0x02, 0x10, 0, 0, 0, 0, 0, 0, 3, 0, 0, 0, 0, 0, 0, 0]⟩]
  types := .ofList [
    ("Broken", ⟨true, [⟨"address", .named "Missing"⟩]⟩),
    ("Pair", ⟨false, [⟨"first", .char⟩, ⟨"second", .unsigned 4⟩]⟩)]
  declared := .ofList [
    ⟨0x1001, .raw 2, some "inside", none⟩,
    ⟨0x1040, .text 2, some "array", none⟩,
    ⟨0x1042, .named "Pair", some "pair", none⟩,
    ⟨0x2000, .pointerTo .char 8, none, none⟩,
    ⟨0x2008, .unsigned 8, some "length", none⟩,
    ⟨0x2010, .pointerTo .char 8, none, none⟩,
    ⟨Word.top, .raw 4, some "last", none⟩]
  references := [⟨0x4000, 0x1040⟩]
  blocks := [⟨0x4000, [⟨0, 0x4000, .setVariable, []⟩,
    ⟨1, 0x4004, .setField, [⟨.constant, none, some 6⟩]⟩]⟩]

/-- A data run that fails, one that is cancelled after its first slice, a code run and a data run
that is completed. -/
def mixedRuns : List RunSettings :=
  [⟨.readOnlyData, { sliceTypeName := "Broken" }, none⟩, ⟨.readOnlyData, {}, some 3⟩,
    ⟨.code, {}, none⟩, ⟨.readOnlyData, {}, none⟩]

theorem apart_touchingVariables :
    touchingVariables.declared.LaidOut touchingVariables.types ∧
      (touchingVariables.performAll (mixedRuns.take 4)).declared.keys =
        [0x1002, 0x1040, 0x2000, 0x2010, Word.top] ∧
      (touchingVariables.performAll (mixedRuns.take 4)).declared.LaidOut
        (touchingVariables.performAll (mixedRuns.take 4)).types := by
  have hl : touchingVariables.declared.LaidOut touchingVariables.types := by decide +kernel
  exact ⟨hl, by decide +kernel, runs_keep_apart hl mixedRuns 4⟩

end Analysis
end SliceRecovery
