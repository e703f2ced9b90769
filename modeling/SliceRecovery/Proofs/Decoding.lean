import SliceRecovery.Proofs.Account
import SliceRecovery.Proofs.Widths

/-!
# SliceRecovery.Proofs.Decoding -- what a slice instance says of the memory under it

A data run that defines the slice type lays it out by the architecture: a pointer of the
architecture's width and right after it a native word. The pair itself was read by the width that
its pointer was declared with. Where the two widths agree, the instance that is put on the pair
decodes to the slice; where they do not, its fields lie over other bytes than those that were read.
A pointer that memory does not back has the value that was stored with it, which no field shows.
-/

namespace SliceRecovery

/-! ## Fields in memory -/

namespace TypeTable

/-- Where the first field of a name lies among fields that follow offset `offset`, and its type. -/
def fieldFrom? (table : TypeTable) (packed : Bool) (name : String) :
    (offset : UInt64) → List Field → Option (UInt64 × DataType)
  | _, [] => none
  | offset, f :: fs =>
    match width? table f.type with
    | none => none
    | some w =>
      if f.name = name then (start? packed offset w).map fun start => (start, f.type)
      else
        match (place packed offset w).bytes? with
        | none => none
        | some next => fieldFrom? table packed name next fs

end TypeTable

namespace Analysis

variable {h i : Analysis} {arch : Architecture} {a : Address} {name : String} {v : Variable}
  {width : UInt64} {target : Option DataType}

/-- The unsigned integer in a field of a named type that is laid over memory at `a`. -/
def readField? (h : Analysis) (order : ByteOrder) (a : Address) (type field : String) :
    Option UInt64 :=
  match h.types.get? type with
  | none => none
  | some c =>
    match TypeTable.fieldFrom? h.types c.packed field 0 c.fields with
    | none => none
    | some (offset, t) =>
      match TypeTable.width? h.types t with
      | none => none
      | some w => (Memory.readInteger h.segments (a + offset) w order).toOption

/-- The address field of a slice type comes first and has the width of pointers. -/
theorem readField?_address (ht : h.types.get? name = some arch.sliceType) :
    h.readField? arch.byteOrder a name "address" =
      (Memory.readInteger h.segments a arch.pointerWidth arch.byteOrder).toOption := by
  have hfield : TypeTable.fieldFrom? h.types true "address" 0 arch.sliceType.fields =
      some (0, .pointerTo .char arch.pointerWidth) := rfl
  have hwidth : TypeTable.width? h.types (.pointerTo .char arch.pointerWidth) =
      some arch.pointerWidth := rfl
  unfold readField?
  rw [ht]
  dsimp only
  rw [show arch.sliceType.packed = true from rfl, hfield]
  dsimp only
  rw [hwidth, UInt64.add_zero]

/-- The length field of a slice type is a native word right after the address field. -/
theorem readField?_length (ht : h.types.get? name = some arch.sliceType) :
    h.readField? arch.byteOrder a name "length" =
      (Memory.readInteger h.segments (a + arch.pointerWidth) arch.addressSize
        arch.byteOrder).toOption := by
  have hplace : TypeTable.place true 0 arch.pointerWidth = .known arch.pointerWidth :=
    TypeTable.place_eq_known_iff.mpr ⟨0, rfl, Word.add?_eq_some_iff.mpr (Nat.zero_add _)⟩
  have hfield : TypeTable.fieldFrom? h.types true "length" 0 arch.sliceType.fields =
      some (arch.pointerWidth, .unsigned arch.addressSize) := by
    show (match (TypeTable.place true 0 arch.pointerWidth).bytes? with
      | none => none
      | some next => TypeTable.fieldFrom? h.types true "length" next
        [⟨"length", .unsigned arch.addressSize⟩]) = _
    rw [hplace]
    rfl
  have hwidth : TypeTable.width? h.types (.unsigned arch.addressSize) = some arch.addressSize := rfl
  unfold readField?
  rw [ht]
  dsimp only
  rw [show arch.sliceType.packed = true from rfl, hfield]
  dsimp only
  rw [hwidth]

/-- A pointer is reported with what memory says in its declared width, else as it was declared. -/
theorem value_withValue {n : UInt64} (harch : h.arch = some arch)
    (hv : v.type = .pointer width target) (hn : (h.withValue v).value = some n) :
    Memory.readInteger h.segments v.address width arch.byteOrder = .ok n ∨
      (∃ e, Memory.readInteger h.segments v.address width arch.byteOrder = .error e) ∧
        v.value = some n := by
  unfold withValue at hn
  rw [hv, harch] at hn
  dsimp only at hn
  cases hread : Memory.readInteger h.segments v.address width arch.byteOrder with
  | ok m =>
    rw [hread] at hn
    cases hn
    exact Or.inl rfl
  | error e =>
    rw [hread] at hn
    exact Or.inr ⟨⟨e, rfl⟩, hn⟩

end Analysis

/-! ## Accepted slices -/

/-- What the memory of `after` says at the pair of an accepted slice, whose pointer was declared in
`before` with width `width`. -/
structure SliceRecord.LaidOver (before after : Analysis) (arch : Architecture) (name : String)
    (r : SliceRecord) (width : UInt64) : Prop where
  /-- The length is the native word after the pointer, whatever the width of that. -/
  length_read : Memory.readInteger after.segments
    (r.pointerAddress + if width = 0 then arch.pointerWidth else width) arch.addressSize
    arch.byteOrder = .ok r.length
  /-- The address of the bytes is the pointer in its own width, or was stored with a pointer that
  cannot be read. -/
  pointer_read : Memory.readInteger after.segments r.pointerAddress width arch.byteOrder =
      .ok r.dataAddress ∨
    (∃ e, Memory.readInteger after.segments r.pointerAddress width arch.byteOrder = .error e) ∧
      ∃ v, before.declared.get? r.pointerAddress = some v ∧ v.value = some r.dataAddress
  /-- The length field lies over the length if the pointer has the width of the architecture or
  none of its own. -/
  length_field : width = arch.pointerWidth ∨ width = 0 →
    after.readField? arch.byteOrder r.pointerAddress name "length" = some r.length
  /-- The address field lies over the pointer if that has the width of the architecture. -/
  address_field : width = arch.pointerWidth →
    after.readField? arch.byteOrder r.pointerAddress name "address" = some r.dataAddress ∨
    after.readField? arch.byteOrder r.pointerAddress name "address" = none ∧
      ∃ v, before.declared.get? r.pointerAddress = some v ∧ v.value = some r.dataAddress

variable {config : RecoveryConfig} {cancellation : Cancellation} {arch : Architecture}
  {h i j : Analysis} {limit : UInt64} {result : RunResult} {r : SliceRecord}

/-- A candidate is a declared pointer whose value was read in its declared width, or was stored with
a pointer that cannot be read. -/
theorem PointerCandidate.exists_pointer {c : PointerCandidate} (harch : h.arch = some arch)
    (hc : c ∈ DataRun.candidates h arch) :
    ∃ v width target, h.variableAt? c.source = some v ∧ v.type = .pointer width target ∧
      c.pointerWidth = (if width = 0 then arch.pointerWidth else width) ∧
      (Memory.readInteger h.segments c.source width arch.byteOrder = .ok c.pointee ∨
        (∃ e, Memory.readInteger h.segments c.source width arch.byteOrder = .error e) ∧
          ∃ u, h.declared.get? c.source = some u ∧ u.value = some c.pointee) := by
  obtain ⟨v, hv, hvc⟩ := exists_of_mem_scan hc
  obtain ⟨width, target, htype, hvalue, -, hs, hw⟩ := ofVariable?_eq_some_iff.mp hvc
  obtain ⟨u, hu, rfl⟩ := List.mem_map.mp hv
  have hutype : u.type = .pointer width target := by
    rw [Analysis.withValue_eq] at htype
    exact htype
  refine ⟨h.withValue u, width, target, ?_, htype, hw, ?_⟩
  · rw [hs]
    exact Analysis.variableAt?_of_mem hv
  · rw [hs, Analysis.address_withValue]
    rcases Analysis.value_withValue harch hutype hvalue with hok | ⟨herr, hstored⟩
    · exact Or.inl hok
    · exact Or.inr ⟨herr, u, VariableTable.mem_values_iff.mp hu, hstored⟩

/-- A candidate that was resolved in the same memory is laid over it once the slice type is
defined. -/
theorem PointerCandidate.laidOver_of_resolve {c : PointerCandidate} {name : String}
    (harch : h.arch = some arch) (hc : c ∈ DataRun.candidates h arch)
    (hr : c.resolve i arch limit = .ok r) (hi : i.segments = h.segments)
    (hj : j.segments = h.segments) (ht : j.types.get? name = some arch.sliceType) :
    ∃ v width target, h.variableAt? r.pointerAddress = some v ∧ v.type = .pointer width target ∧
      r.LaidOver h j arch name width := by
  obtain ⟨-, hlength, -, -, -, -, hp, hd⟩ := resolve_eq_ok_iff.mp hr
  obtain ⟨v, width, target, hv, htype, hw, hpointer⟩ := exists_pointer harch hc
  unfold lengthAddress at hlength
  rw [← hp, hw, hi, ← hj] at hlength
  rw [← hp, ← hd, ← hj] at hpointer
  rw [← hp] at hv
  -- where the widths agree, the fields are read at the addresses of the two reads above
  refine ⟨v, width, target, hv, htype, hlength, hpointer, fun hwidth => ?_, fun hwidth => ?_⟩
  · have hown : (if width = 0 then arch.pointerWidth else width) = arch.pointerWidth := by
      split
      · rfl
      · rename_i hne
        exact hwidth.resolve_right hne
    rw [hown] at hlength
    rw [Analysis.readField?_length ht, hlength]
    rfl
  · rw [Analysis.readField?_address ht, ← hwidth]
    rcases hpointer with hok | ⟨⟨e, herr⟩, hstored⟩
    · rw [hok]
      exact Or.inl rfl
    · rw [herr]
      exact Or.inr ⟨rfl, hstored⟩

/-- A trace along which the slice type was defined leaves it as the architecture has it. -/
theorem DataRun.Trace.get?_sliceType {vs : List Verdict}
    (ht : Trace config arch (h.withBatch (some [])) vs i)
    (hcreated : (tally config h vs { mode := .readOnlyData }).sliceTypeCreated = true) :
    i.types.get? config.sliceTypeName = some arch.sliceType := by
  by_cases hs : slices vs = []
  · rw [tally, if_neg fun hc => hc.2 hs] at hcreated
    cases hcreated
  · -- the first slice found the name free, and no later one defines the type again
    rw [tally, if_pos ⟨rfl, hs⟩] at hcreated
    have hnone : (h.withBatch (some [])).hasType config.sliceTypeName = false :=
      (Bool.not_eq_true' _).mp hcreated
    rw [ht.types_eq, if_neg hs, Analysis.types_ensureSliceType, hnone,
      if_neg Bool.false_ne_true, OrderedMap.get?_insert, if_pos rfl]

/-- **What slice instances decode to.** Whatever the analysis, the settings and the cancellation: a
data run that says it defined the slice type has defined it as the packed pair of the architecture,
and every instance that it put on a pair whose pointer was declared with the width of the
architecture decodes to the slice that was recovered, up to an address that memory does not hold. -/
theorem data_run_decodes
    (hr : (h.recover .readOnlyData config cancellation).result = .ok result)
    (hcreated : result.sliceTypeCreated = true) :
    ∃ arch, h.arch = some arch ∧
      (h.recover .readOnlyData config cancellation).analysis.types.get? config.sliceTypeName =
        some arch.sliceType ∧
      ∀ r ∈ result.slices, ∃ v width target, h.variableAt? r.pointerAddress = some v ∧
        v.type = .pointer width target ∧
        r.LaidOver h (h.recover .readOnlyData config cancellation).analysis arch
          config.sliceTypeName width := by
  have hr : (DataRun.run config cancellation h).result = .ok result := hr
  show ∃ arch, h.arch = some arch ∧
      (DataRun.run config cancellation h).analysis.types.get? config.sliceTypeName =
        some arch.sliceType ∧
      ∀ r ∈ result.slices, ∃ v width target, h.variableAt? r.pointerAddress = some v ∧
        v.type = .pointer width target ∧
        r.LaidOver h (DataRun.run config cancellation h).analysis arch config.sliceTypeName width
  obtain ⟨arch, harch, ⟨rfl, -⟩ | ⟨vs, rest, i, j, -, hcs, ht, hres, -, hj, hafter⟩⟩ :=
    DataRun.run_eq_ok hr
  · cases hcreated
  · have hslices : result.slices = DataRun.slices vs := by
      rw [hres]
      rfl
    rw [hres] at hcreated
    have htype := ht.get?_sliceType hcreated
    rw [← Analysis.types_afterRun config hj, ← hafter] at htype
    refine ⟨arch, harch, htype, fun r hmem => ?_⟩
    rw [hslices] at hmem
    obtain ⟨c, hc, k, hk, hkr⟩ := ht.exists_of_mem_slices hcs hmem
    refine PointerCandidate.laidOver_of_resolve harch hc hkr hk.segments_eq ?_ htype
    rw [hafter, Analysis.afterRun_eq, Analysis.commit_eq hj]
    exact ht.frame.segments_eq

/-- A binary with three pointers and a word after each: one is as wide as the architecture has it,
one has half that width, and one has no width of its own and a value that was stored with it. -/
def unevenPointers : Analysis where
  arch := some (.ofWordSize "x86_64" 8 .little)
  segments := [
    ⟨{ start := 0x1000, stop := 0x1100, readable := true }, [104, 101, 108, 108, 111]⟩,
    ⟨{ start := 0x2000, stop := 0x2030, readable := true, writable := true },
      [0x00, 0x10, 0, 0, 0, 0, 0, 0, 5, 0, 0, 0, 0, 0, 0, 0,
       0x01, 0x10, 0, 0, 4, 0, 0, 0, 0, 0, 0, 0, 0, 0, 0, 0,
       0, 0, 0, 0, 0, 0, 0, 0, 3, 0, 0, 0, 0, 0, 0, 0]⟩]
  declared := .ofList [
    ⟨0x2000, .pointerTo .char 8, none, none⟩,
    ⟨0x2010, .pointerTo .char 4, none, none⟩,
    ⟨0x2020, .pointerTo .char 0, none, some 0x1002⟩]

theorem decodes_unevenPointers :
    ∃ result, (unevenPointers.recover .readOnlyData {} none).result = .ok result ∧
      result.sliceTypeCreated = true ∧
      result.slices.map SliceRecord.pointerAddress = [0x2000, 0x2010, 0x2020] ∧
      ∃ arch, unevenPointers.arch = some arch ∧
        (unevenPointers.recover .readOnlyData {} none).analysis.types.get? "RustStringSlice" =
          some arch.sliceType ∧
        ∀ r ∈ result.slices, ∃ v width target,
          unevenPointers.variableAt? r.pointerAddress = some v ∧ v.type = .pointer width target ∧
          r.LaidOver unevenPointers (unevenPointers.recover .readOnlyData {} none).analysis arch
            "RustStringSlice" width := by
  obtain ⟨result, hr, hcreated, haddresses⟩ :
      ∃ result, (unevenPointers.recover .readOnlyData {} none).result = .ok result ∧
        result.sliceTypeCreated = true ∧
        result.slices.map SliceRecord.pointerAddress = [0x2000, 0x2010, 0x2020] :=
    ⟨_, rfl, rfl, rfl⟩
  exact ⟨result, hr, hcreated, haddresses, data_run_decodes hr hcreated⟩

/-- An instance of the slice type on the pair of a slice shows what was recovered. -/
def SliceRecord.Decoded (after : Analysis) (order : ByteOrder) (name : String) (r : SliceRecord) :
    Prop :=
  after.readField? order r.pointerAddress name "address" = some r.dataAddress ∧
    after.readField? order r.pointerAddress name "length" = some r.length

/-- The instances on the pairs of a narrow pointer and of one that has only a stored value show
something else. -/
theorem not_decoded_unevenPointers :
    ∃ result narrow stored, (unevenPointers.recover .readOnlyData {} none).result = .ok result ∧
      result.sliceTypeCreated = true ∧ narrow ∈ result.slices ∧ stored ∈ result.slices ∧
      ¬ narrow.Decoded (unevenPointers.recover .readOnlyData {} none).analysis .little
        "RustStringSlice" ∧
      ¬ stored.Decoded (unevenPointers.recover .readOnlyData {} none).analysis .little
        "RustStringSlice" := by
  refine ⟨_, ⟨0x2010, 0x1001, 4, [101, 108, 108, 111], "ello"⟩,
    ⟨0x2020, 0x1002, 3, [108, 108, 111], "llo"⟩, rfl, rfl, ?_, ?_, ?_, ?_⟩
  · exact List.mem_cons_of_mem _ List.mem_cons_self
  · exact List.mem_cons_of_mem _ (List.mem_cons_of_mem _ List.mem_cons_self)
  · -- the address field takes the first half of the length with it
    rintro ⟨haddress, -⟩
    have hread : (unevenPointers.recover .readOnlyData {} none).analysis.readField? .little 0x2010
      "RustStringSlice" "address" = some 0x400001001 := rfl
    rw [hread] at haddress
    exact absurd haddress (by decide)
  · -- memory does not hold the stored value
    rintro ⟨haddress, -⟩
    have hread : (unevenPointers.recover .readOnlyData {} none).analysis.readField? .little 0x2020
      "RustStringSlice" "address" = some 0 := rfl
    rw [hread] at haddress
    exact absurd haddress (by decide)

end SliceRecovery
