import SliceRecovery.Analysis.State

/-!
# SliceRecovery.Proofs.Journal -- a journal takes its edits back exactly

`Journals h i es` says that `i` comes from `h` by the edits `es`, newest first: taking them back
from `i` gives all of `h` except for the open batch, which has them in front. It is one equation
between whole analyses, so it also says that edits touch nothing but variables, types and the open
batch. Every edit satisfies it and it composes; closing a batch, taking it back and undoing it are
then read off.

Declaring a variable needs one condition. At the largest address a variable that is replaced is not
seen as covered, and is lost without a record; below that address the journal is exact.
-/

namespace SliceRecovery

/-! ## Taking edits back -/

namespace Edit

/-- The variables before an edit. -/
def variablesBefore (t : VariableTable) : Edit → VariableTable
  | .variableAdded a => t.erase a
  | .variableRemoved v => t.place v
  | .typeSet _ _ => t

/-- The types before an edit. -/
def typesBefore (t : TypeTable) : Edit → TypeTable
  | .variableAdded _ => t
  | .variableRemoved _ => t
  | .typeSet name (some c) => t.insert name c
  | .typeSet name none => t.erase name

end Edit

namespace Analysis

variable {h i j : Analysis} {es fs : List Edit} {e : Edit}

/-- The analysis with another open batch. -/
def withBatch (h : Analysis) (b : Option (List Edit)) : Analysis := { h with batch := b }

theorem takeBack_eq (h : Analysis) (e : Edit) :
    h.takeBack e =
      { h with declared := e.variablesBefore h.declared, types := e.typesBefore h.types } := by
  cases e with
  | variableAdded a => rfl
  | variableRemoved v => rfl
  | typeSet name previous =>
    cases previous with
    | none => rfl
    | some c => rfl

/-- Taking a journal back changes variables and types, each by itself, and nothing else. -/
theorem rollBack_eq (h : Analysis) (es : List Edit) :
    h.rollBack es =
      { h with
        declared := es.foldl Edit.variablesBefore h.declared
        types := es.foldl Edit.typesBefore h.types } := by
  induction es generalizing h with
  | nil => rfl
  | cons e es ih =>
    show (h.takeBack e).rollBack es = _
    rw [ih, takeBack_eq]
    rfl

theorem rollBack_append (h : Analysis) (es fs : List Edit) :
    h.rollBack (es ++ fs) = (h.rollBack es).rollBack fs :=
  List.foldl_append

theorem rollBack_withBatch (h : Analysis) (b : Option (List Edit)) (es : List Edit) :
    (h.withBatch b).rollBack es = (h.rollBack es).withBatch b := by
  rw [rollBack_eq, rollBack_eq]
  rfl

/-! ## What edits leave alone -/

/-- `i` is `h` up to variables, types and what is written in the open batch. -/
structure Frame (h i : Analysis) : Prop where
  same : i = { h with declared := i.declared, types := i.types, batch := i.batch }
  isOpen : i.batch.isSome = h.batch.isSome

namespace Frame

theorem refl (h : Analysis) : Frame h h := ⟨rfl, rfl⟩

theorem trans (hi : Frame h i) (hj : Frame i j) : Frame h j where
  same := by rw [hj.same, hi.same]
  isOpen := hj.isOpen.trans hi.isOpen

theorem record (hi : Frame h i) : Frame h (i.record e) where
  same := by
    rw [hi.same]
    rfl
  isOpen := by
    rw [← hi.isOpen]
    exact Option.isSome_map

theorem segments_eq (hi : Frame h i) : i.segments = h.segments := by rw [hi.same]

theorem history_eq (hi : Frame h i) : i.history = h.history := by rw [hi.same]

end Frame

/-! ## Journals -/

/-- `i` is `h` after the edits `es`, newest first. -/
def Journals (h i : Analysis) (es : List Edit) : Prop :=
  i.rollBack es = h.withBatch (h.batch.map (es ++ ·))

namespace Journals

theorem refl (h : Analysis) : Journals h h [] := by
  show h = h.withBatch (h.batch.map fun b => b)
  rw [Option.map_id']
  rfl

/-- Without edits nothing has changed. -/
theorem eq_of_nil (hi : Journals h i []) : i = h := by
  have hi : i = h.withBatch (h.batch.map fun b => b) := hi
  rw [Option.map_id'] at hi
  exact hi

theorem batch_eq (hi : Journals h i es) : i.batch = h.batch.map (es ++ ·) := by
  have := congrArg Analysis.batch hi
  rwa [rollBack_eq] at this

/-- The batch that was opened before the edits holds them. -/
theorem batch_eq_some (hi : Journals (h.withBatch (some [])) i es) : i.batch = some es := by
  rw [hi.batch_eq]
  show some (es ++ []) = some es
  rw [List.append_nil]

theorem passes_eq (hi : Journals h i es) : i.passes = h.passes := by
  have := congrArg Analysis.passes hi
  rwa [rollBack_eq] at this

theorem trans (hi : Journals h i es) (hj : Journals i j fs) : Journals h j (fs ++ es) := by
  have hb : i.batch.map (fs ++ ·) = h.batch.map ((fs ++ es) ++ ·) := by
    rw [hi.batch_eq, Option.map_map]
    congr 1
    funext x
    exact (List.append_assoc fs es x).symm
  show j.rollBack (fs ++ es) = _
  rw [rollBack_append, hj, rollBack_withBatch, hi, hb]
  rfl

/-- An edit that can be taken back is journalled by being recorded. -/
theorem record (hb : i.batch = h.batch) (he : i.takeBack e = h) :
    Journals h (i.record e) [e] := by
  show (i.withBatch (i.batch.map (e :: ·))).rollBack [e] = _
  rw [rollBack_withBatch, show i.rollBack [e] = i.takeBack e from rfl, he, hb]
  rfl

end Journals

/-! ## The edits -/

/-- A removal is journalled, and what was removed is recorded. -/
theorem journals_evict (h : Analysis) (a : Address) :
    ∃ es, Journals h (h.evict a) es ∧
      ∀ v, h.declared.get? a = some v → .variableRemoved v ∈ es := by
  unfold evict
  cases hv : h.declared.get? a with
  | none => exact ⟨[], .refl h, by simp⟩
  | some v =>
    refine ⟨_, .record rfl ?_, by simp⟩
    show { h with declared := (h.declared.erase a).place v } = h
    rw [VariableTable.place_erase hv]

theorem journals_defineType (h : Analysis) (name : String) (c : Composite) :
    ∃ e, Journals h (h.defineType name c) [e] := by
  refine ⟨_, .record rfl ?_⟩
  cases hp : h.types.get? name with
  | none =>
    show { h with types := (h.types.insert name c).erase name } = h
    rw [OrderedMap.erase_insert hp]
  | some p =>
    show { h with types := (h.types.insert name c).insert name p } = h
    rw [OrderedMap.insert_insert hp]

/-! ## The beginning and the end of a batch -/

theorem begin_eq_ok_iff : h.begin = .ok i ↔ h.batch = none ∧ i = h.withBatch (some []) := by
  unfold begin
  cases hb : h.batch with
  | none => simp [withBatch, eq_comm]
  | some es => simp

theorem withBatch_none (hb : h.batch = none) : h.withBatch none = h := by
  rw [← hb]
  rfl

/-- Taking a batch back takes back what was edited in it since. -/
theorem Journals.revert_eq (hi : Journals h i es) : i.revert = h.revert := by
  unfold revert
  rw [hi.batch_eq]
  cases h.batch with
  | none => rfl
  | some fs =>
    show Except.ok ((i.withBatch none).rollBack (es ++ fs)) =
      Except.ok ((h.withBatch none).rollBack fs)
    rw [rollBack_append, rollBack_withBatch, hi]
    rfl

/-- Taking a batch back gives the analysis in which it was opened. -/
theorem revert_of_journals (hb : h.batch = none) (hi : Journals (h.withBatch (some [])) i es) :
    i.revert = .ok h := by
  rw [hi.revert_eq]
  exact congrArg Except.ok (withBatch_none hb)

/-- A batch without edits leaves the analysis in which it was opened. -/
theorem commit_withBatch_nil (hb : h.batch = none) : (h.withBatch (some [])).commit = .ok h :=
  congrArg Except.ok (withBatch_none hb)

/-- A batch with edits goes to the history. -/
theorem commit_of_journals (hi : Journals (h.withBatch (some [])) i es) (hes : es ≠ []) :
    i.commit = .ok { i with batch := none, history := es :: i.history } := by
  cases es with
  | nil => exact absurd rfl hes
  | cons e es =>
    unfold commit
    rw [hi.batch_eq_some]

/-- Undoing a closed batch gives the analysis in which it was opened, with the passes since. -/
theorem undo?_of_journals (hb : h.batch = none) (hi : Journals (h.withBatch (some [])) i es)
    (passes : Nat) :
    ({ i with batch := none, history := es :: i.history, passes } : Analysis).undo? =
      some { h with passes } := by
  show some (({ i with batch := none, passes } : Analysis).rollBack es) = _
  have hi : i.rollBack es = h.withBatch (some (es ++ [])) := hi
  rw [rollBack_eq] at hi ⊢
  cases i
  cases h
  simp only [withBatch, mk.injEq] at hi hb
  simp [hi, hb]

end Analysis
end SliceRecovery
