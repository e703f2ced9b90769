import SliceRecovery.Proofs.Declaring
import SliceRecovery.Recovery.Marking

/-!
# SliceRecovery.Proofs.Marking -- what declaring a recovered slice does

`mark` is what a data run does with one accepted slice: the slice type is defined unless the name
is taken, then the bytes and the pair are declared. Defining the type where it exists is no edit,
so a run that does it before its first slice only is a run that does it before every slice.
-/

namespace SliceRecovery

/-- The variables that a slice is declared as, in the order of their declaration. -/
def SliceRecord.annotations (config : RecoveryConfig) (r : SliceRecord) : List Variable :=
  [⟨r.dataAddress, .text r.length, none, none⟩,
    ⟨r.pointerAddress, .named config.sliceTypeName, some (config.displayName r.text), none⟩]

namespace Analysis

variable {h i m : Analysis} {config : RecoveryConfig} {arch : Architecture} {r : SliceRecord}
  {e : AnalysisError} {v : Variable}

/-! ## The slice type -/

theorem hasType_iff {name : String} : h.hasType name = true ↔ (h.types.get? name).isSome :=
  Iff.rfl

theorem ensureSliceType_of_hasType (ht : h.hasType config.sliceTypeName = true) :
    h.ensureSliceType config arch = (false, h) := by
  unfold ensureSliceType
  rw [if_pos ht]

theorem ensureSliceType_of_not_hasType (ht : h.hasType config.sliceTypeName = false) :
    h.ensureSliceType config arch = (true, h.defineType config.sliceTypeName arch.sliceType) := by
  unfold ensureSliceType
  rw [if_neg (by rw [ht]; decide)]

theorem fst_ensureSliceType (h : Analysis) (config : RecoveryConfig) (arch : Architecture) :
    (h.ensureSliceType config arch).1 = !h.hasType config.sliceTypeName := by
  cases ht : h.hasType config.sliceTypeName with
  | true => rw [ensureSliceType_of_hasType ht]; rfl
  | false => rw [ensureSliceType_of_not_hasType ht]; rfl

theorem types_ensureSliceType :
    (h.ensureSliceType config arch).2.types =
      if h.hasType config.sliceTypeName then h.types
      else h.types.insert config.sliceTypeName arch.sliceType := by
  cases ht : h.hasType config.sliceTypeName with
  | true => rw [ensureSliceType_of_hasType ht]; rfl
  | false => rw [ensureSliceType_of_not_hasType ht]; rfl

theorem declared_ensureSliceType : (h.ensureSliceType config arch).2.declared = h.declared := by
  unfold ensureSliceType
  split
  · rfl
  · rfl

theorem hasType_ensureSliceType :
    (h.ensureSliceType config arch).2.hasType config.sliceTypeName = true := by
  rw [hasType_iff, types_ensureSliceType]
  split
  · assumption
  · rw [OrderedMap.get?_insert, if_pos rfl]
    rfl

theorem frame_ensureSliceType : Frame h (h.ensureSliceType config arch).2 := by
  unfold ensureSliceType
  split
  · exact .refl h
  · exact .record ⟨rfl, rfl⟩

theorem journals_ensureSliceType (h : Analysis) (config : RecoveryConfig) (arch : Architecture) :
    ∃ es, Journals h (h.ensureSliceType config arch).2 es := by
  unfold ensureSliceType
  split
  · exact ⟨[], .refl h⟩
  · obtain ⟨e, he⟩ := journals_defineType h config.sliceTypeName arch.sliceType
    exact ⟨[e], he⟩

/-! ## Bytes and pair -/

/-- What starts at the bytes is removed, whether or not something does. -/
theorem markSlice_eq :
    h.markSlice config r =
      match (h.evict r.dataAddress).define r.dataAddress (.text r.length) none with
      | .error e => .error (h.evict r.dataAddress, e)
      | .ok m =>
        match m.define r.pointerAddress (.named config.sliceTypeName)
            (some (config.displayName r.text)) with
        | .error e => .error (m, e)
        | .ok i => .ok i := by
  unfold markSlice
  rcases undefine_cases h r.dataAddress with hu | ⟨⟨e, hu⟩, hsame⟩
  · rewrite [hu]
    rfl
  · rewrite [hu, hsame]
    rfl

theorem markSlice_eq_ok_iff :
    h.markSlice config r = .ok i ↔
      ∃ m, (h.evict r.dataAddress).define r.dataAddress (.text r.length) none = .ok m ∧
        m.define r.pointerAddress (.named config.sliceTypeName)
          (some (config.displayName r.text)) = .ok i := by
  rw [markSlice_eq]
  obtain ⟨m, hm⟩ := define_text (h.evict r.dataAddress) r.dataAddress r.length none
  rw [hm]
  cases hi : m.define r.pointerAddress (.named config.sliceTypeName)
      (some (config.displayName r.text)) with
  | error e => simp [hi]
  | ok j => simp [hi]

/-- Only the pair can fail to be declared, for want of a width of the slice type. -/
theorem markSlice_eq_error (he : h.markSlice config r = .error (m, e)) :
    (h.evict r.dataAddress).define r.dataAddress (.text r.length) none = .ok m ∧
      TypeTable.width? h.types (.named config.sliceTypeName) = none := by
  rw [markSlice_eq] at he
  obtain ⟨k, hk⟩ := define_text (h.evict r.dataAddress) r.dataAddress r.length none
  rw [hk] at he
  have ht : k.types = h.types := by rw [types_define hk, types_evict]
  cases hi : k.define r.pointerAddress (.named config.sliceTypeName)
      (some (config.displayName r.text)) with
  | ok j => simp [hi] at he
  | error e' =>
    simp only [hi, Except.error.injEq, Prod.mk.injEq] at he
    obtain ⟨rfl, -⟩ := he
    refine ⟨hk, ?_⟩
    rw [← ht]
    unfold define at hi
    cases hw : TypeTable.width? k.types (.named config.sliceTypeName) with
    | none => rfl
    | some w => simp [hw] at hi

/-! ## An accepted slice -/

/-- Declare an accepted slice, defining the slice type if there is none. -/
def mark (h : Analysis) (config : RecoveryConfig) (arch : Architecture) (r : SliceRecord) :
    Except (Analysis × AnalysisError) Analysis :=
  (h.ensureSliceType config arch).2.markSlice config r

theorem types_mark (hi : h.mark config arch r = .ok i) :
    i.types = (h.ensureSliceType config arch).2.types := by
  obtain ⟨m, hm, hi⟩ := markSlice_eq_ok_iff.mp hi
  rw [types_define hi, types_define hm, types_evict]

theorem hasType_mark (hi : h.mark config arch r = .ok i) :
    i.hasType config.sliceTypeName = true := by
  rw [hasType_iff, types_mark hi]
  exact hasType_ensureSliceType

/-- A slice is only declared while its type has a width. -/
theorem width_of_mark (hi : h.mark config arch r = .ok i) :
    (TypeTable.width? i.types (.named config.sliceTypeName)).isSome := by
  obtain ⟨m, hm, hi⟩ := markSlice_eq_ok_iff.mp hi
  rw [types_define hi]
  exact width_of_define hi

theorem frame_mark (hi : h.mark config arch r = .ok i) : Frame h i := by
  obtain ⟨m, hm, hi⟩ := markSlice_eq_ok_iff.mp hi
  exact ((frame_ensureSliceType.trans (frame_evict _ _)).trans (frame_define hm)).trans
    (frame_define hi)

/-- A slice is two declarations; what was removed at the bytes clashes with the first. -/
theorem stands_mark (hi : h.mark config arch r = .ok i) :
    v ∈ i.declared.values ↔ v.Stands i.types h.declared (r.annotations config) := by
  have ht := types_mark hi
  obtain ⟨m, hm, hi⟩ := markSlice_eq_ok_iff.mp hi
  have hbytes : ∀ v, v ∈ m.declared.values ↔
      v.Stands i.types h.declared [⟨r.dataAddress, .text r.length, none, none⟩] := by
    intro v
    rw [mem_define hm, mem_evict, types_evict, ← ht, declared_ensureSliceType]
    unfold Variable.Stands
    rw [Variable.lasts_singleton, List.forall_mem_singleton]
    refine or_congr_right ⟨fun hv => ⟨hv.1.1, hv.2⟩, fun hv => ⟨⟨hv.1, ?_⟩, hv.2⟩⟩
    exact fun ha => hv.2 (Or.inl ha)
  rw [stands_define hi]
  show _ ↔ v.Stands i.types h.declared ([⟨r.dataAddress, .text r.length, none, none⟩] ++ [_])
  rw [Variable.stands_append hbytes, types_define hm, types_evict, ← ht]

theorem journals_mark (hd : r.dataAddress < Word.top) (hp : r.pointerAddress < Word.top)
    (hi : h.mark config arch r = .ok i) : ∃ es, Journals h i es ∧ es ≠ [] := by
  obtain ⟨m, hm, hi⟩ := markSlice_eq_ok_iff.mp hi
  obtain ⟨es, hes⟩ := journals_ensureSliceType h config arch
  obtain ⟨fs, hfs, -⟩ := journals_evict (h.ensureSliceType config arch).2 r.dataAddress
  obtain ⟨gs, hgs, -⟩ := journals_define hm (Or.inl hd)
  obtain ⟨ks, hks, hne, -⟩ := journals_define hi (Or.inl hp)
  exact ⟨_, ((hes.trans hfs).trans hgs).trans hks, by simp [hne]⟩

/-- A slice fails to be declared only when its type has no width. -/
theorem width_of_mark_error (hh : h.hasType config.sliceTypeName = true)
    (he : h.mark config arch r = .error (m, e)) :
    TypeTable.width? h.types (.named config.sliceTypeName) = none := by
  obtain ⟨-, hw⟩ := markSlice_eq_error he
  rwa [ensureSliceType_of_hasType hh] at hw

/-- What a failed declaration did is journalled; the pair was not touched. -/
theorem journals_of_mark_error (hd : r.dataAddress < Word.top)
    (he : h.mark config arch r = .error (m, e)) : ∃ es, Journals h m es := by
  obtain ⟨hm, -⟩ := markSlice_eq_error he
  obtain ⟨es, hes⟩ := journals_ensureSliceType h config arch
  obtain ⟨fs, hfs, -⟩ := journals_evict (h.ensureSliceType config arch).2 r.dataAddress
  obtain ⟨gs, hgs, -⟩ := journals_define hm (Or.inl hd)
  exact ⟨_, (hes.trans hfs).trans hgs⟩

end Analysis
end SliceRecovery
