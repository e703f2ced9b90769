import SliceRecovery.Form.Snapshot
import SliceRecovery.Proofs.Records

/-!
# SliceRecovery.Proofs.Forms -- every form of a snapshot is read back

Each decoder undoes its writer, from the scalars up to whole snapshots, and what is written fits. A
data type is a tree of held parts, and its decoder has fuel for the depth of what it reads; the
induction is on the type, for every stage and every fuel that suffices.
-/

namespace SliceRecovery

open Json (Stage Reading)
open Json.Decode

/-! ## Architectures and memory -/

namespace ByteOrder

theorem decoder_undoes : Undoes decoder toJson := fun o =>
  name_str (show names.lookup o.label = some o by cases o <;> rfl) .direct

end ByteOrder

namespace RegionKind

theorem decoder_undoes (stage : Stage) : Undoes (decoder stage) toJson := fun k =>
  name_str (show names.lookup k.label = some k by cases k <;> rfl) stage

end RegionKind

namespace SectionUse

theorem decoder_undoes (stage : Stage) : Undoes (decoder stage) toJson := fun u =>
  name_str (show names.lookup u.label = some u by cases u <;> rfl) stage

end SectionUse

namespace Architecture

theorem decoder_undoes : Undoes decoder toJson := by
  intro a
  refine record_obj (by decide) (.refl _) fun p hp => ?_
  rw [hp.need rfl (text_undoes a.name), hp.need rfl (word_undoes a.addressSize),
    hp.need rfl (word_undoes a.pointerWidth), hp.need rfl (ByteOrder.decoder_undoes a.byteOrder),
    hp.need rfl (word_undoes a.defaultIntSize)]
  rfl

theorem fits_toJson (a : Architecture) : a.toJson.Fits := by
  simp [toJson, ByteOrder.toJson]

end Architecture

namespace Region

theorem names_sublist (r : Region) : (r.toMembers.map Prod.fst).Sublist fieldNames := by
  simp only [toMembers, List.map_append]
  exact (((List.Sublist.refl _).append (Json.sublist_member? "name" .str r.name)).append
    (.refl _)).append (Json.sublist_member? "semantics" SectionUse.toJson r.use)

theorem decoder_undoes (stage : Stage) : Undoes (decoder stage) toJson := by
  intro r
  refine record_obj (by decide) r.names_sublist fun p hp => ?_
  have hkind : r.toMembers.lookup "kind" = some r.kind.toJson := by
    simp [toMembers, List.lookup_cons]
  have hname : r.toMembers.lookup "name" = r.name.map .str := by
    simp [toMembers, List.lookup_cons, List.lookup_append]
  have hreadable : r.toMembers.lookup "readable" = some (.bool r.readable) := by
    simp [toMembers, List.lookup_cons, List.lookup_append]
  have hwritable : r.toMembers.lookup "writable" = some (.bool r.writable) := by
    simp [toMembers, List.lookup_cons, List.lookup_append]
  have hexecutable : r.toMembers.lookup "executable" = some (.bool r.executable) := by
    simp [toMembers, List.lookup_cons, List.lookup_append]
  have huse : r.toMembers.lookup "semantics" = r.use.map SectionUse.toJson := by
    simp [toMembers, List.lookup_cons, List.lookup_append]
  rw [hp.need rfl (word_undoes r.start), hp.need rfl (word_undoes r.stop),
    hp.getD hkind (RegionKind.decoder_undoes stage r.kind),
    hp.get? hname (fun s _ => text_undoes s) fun _ _ => nofun,
    hp.getD hreadable (bool_undoes r.readable), hp.getD hwritable (bool_undoes r.writable),
    hp.getD hexecutable (bool_undoes r.executable),
    hp.get? huse (fun u _ => SectionUse.decoder_undoes stage u) fun _ _ => nofun]
  rfl

theorem fits_toMembers (r : Region) : ∀ m ∈ r.toMembers, m.2.Fits := by
  intro m hm
  simp only [toMembers, List.mem_append, List.mem_cons, List.not_mem_nil, or_false,
    Json.mem_member?] at hm
  rcases hm with ((((rfl | rfl | rfl) | ⟨s, -, rfl⟩) | rfl | rfl | rfl) | ⟨u, -, rfl⟩)
  all_goals simp [RegionKind.toJson, SectionUse.toJson]

theorem fits_toJson (r : Region) : r.toJson.Fits := Json.fits_obj.mpr r.fits_toMembers

end Region

namespace Segment

theorem bytes_undoes : Undoes (list byte) bytesToJson := list_undoes byte_undoes

theorem decoder_undoes : Undoes decoder toJson := by
  intro s
  have hnames : ∀ m ∈ s.region.toMembers, m.1 ≠ "bytes" := by
    intro m hm h
    have hmem := s.region.names_sublist.subset (List.mem_map_of_mem hm)
    rw [h] at hmem
    exact absurd hmem (by decide)
  have hown : (s.region.toMembers ++ [("bytes", bytesToJson s.bytes)]).filter
      (fun m => ["bytes"].contains m.1) = [("bytes", bytesToJson s.bytes)] := by
    rw [List.filter_append, List.filter_eq_nil_iff.mpr fun m hm => by simpa using hnames m hm]
    simp
  have hrest : (s.region.toMembers ++ [("bytes", bytesToJson s.bytes)]).filter
      (fun m => !(["bytes"].contains m.1)) = s.region.toMembers := by
    rw [List.filter_append, List.filter_eq_self.mpr fun m hm => by simpa using hnames m hm]
    simp
  exact spread_obj hown hrest (by simp) (fun p hp => hp.getD rfl (bytes_undoes s.bytes) [])
    (Region.decoder_undoes .held s.region)

theorem fits_toJson (s : Segment) : s.toJson.Fits := by
  refine Json.fits_obj.mpr fun m hm => ?_
  rcases List.mem_append.mp hm with hm | hm
  · exact s.region.fits_toMembers m hm
  · cases List.mem_singleton.mp hm
    simp [bytesToJson]

end Segment

/-! ## Types -/

namespace DataType

theorem toJson_ne_null (t : DataType) : t.toJson ≠ .null := by
  unfold toJson
  split <;> exact nofun

/-- A type is read back at every stage, with more fuel than its form is deep. -/
theorem decodeWithin_toJson : (t : DataType) → (fuel : Nat) → (stage : Stage) →
    (Reading.ofJson t.toJson).depth < fuel → decodeWithin fuel stage (.ofJson t.toJson) = .ok t
  | pointer w none, fuel + 1, stage, _ => by
    refine tagged_obj rfl (by simp) (record_obj (by decide) (by simp) fun p hp => ?_)
    rw [hp.need rfl (word_undoes w),
      hp.get? (f := toJson) (o := none) rfl (fun _ h => nomatch h) fun _ h => nomatch h]
    rfl
  | pointer w (some t), fuel + 1, stage, hfuel => by
    simp only [toJson, Reading.ofJson, Reading.membersOfJson, Reading.depth,
      Reading.membersDepth] at hfuel
    have ht := decodeWithin_toJson t fuel .held (by omega)
    refine tagged_obj rfl (by simp) (record_obj (by decide) (.refl _) fun p hp => ?_)
    rw [hp.need rfl (word_undoes w),
      hp.get? (f := toJson) (o := some t) rfl (fun _ h => by cases h; exact ht)
        fun u _ => u.toJson_ne_null]
    rfl
  | integer w s, fuel + 1, stage, _ => by
    refine tagged_obj rfl (by simp) (record_obj (by decide) (.refl _) fun p hp => ?_)
    rw [hp.need rfl (word_undoes w), hp.getD rfl (bool_undoes s)]
    rfl
  | char, fuel + 1, stage, _ => tagged_obj rfl (by simp) rfl
  | array e n, fuel + 1, stage, hfuel => by
    simp only [toJson, Reading.ofJson, Reading.membersOfJson, Reading.depth,
      Reading.membersDepth] at hfuel
    have he := decodeWithin_toJson e fuel .held (by omega)
    refine tagged_obj rfl (by simp) (record_obj (by decide) (.refl _) fun p hp => ?_)
    rw [hp.need rfl he, hp.need rfl (word_undoes n)]
    rfl
  | named n, fuel + 1, stage, _ => by
    refine tagged_obj rfl (by simp) (record_obj (by decide) (.refl _) fun p hp => ?_)
    rw [hp.need rfl (text_undoes n)]
    rfl
  | raw w, fuel + 1, stage, _ => by
    refine tagged_obj rfl (by simp) (record_obj (by decide) (.refl _) fun p hp => ?_)
    rw [hp.need rfl (word_undoes w)]
    rfl

theorem decoder_undoes : Undoes decoder toJson := fun t =>
  t.decodeWithin_toJson _ .direct (Nat.lt_succ_self _)

theorem fits_toJson : (t : DataType) → t.toJson.Fits
  | pointer w none => by simp [toJson]
  | pointer w (some t) => by simp [toJson, fits_toJson t]
  | integer w s => by simp [toJson]
  | char => by simp [toJson]
  | array e n => by simp [toJson, fits_toJson e]
  | named n => by simp [toJson]
  | raw w => by simp [toJson]

end DataType

namespace Field

theorem decoder_undoes : Undoes decoder toJson := by
  intro f
  refine record_obj (by decide) (.refl _) fun p hp => ?_
  rw [hp.need rfl (text_undoes f.name), hp.need rfl (DataType.decoder_undoes f.type)]
  rfl

theorem fits_toJson (f : Field) : f.toJson.Fits := by
  simp [toJson, f.type.fits_toJson]

end Field

namespace Composite

theorem decoder_undoes : Undoes decoder toJson := by
  intro c
  refine record_obj (by decide) (.refl _) fun p hp => ?_
  rw [hp.getD rfl (bool_undoes c.packed),
    hp.need rfl (list_undoes Field.decoder_undoes c.fields)]
  rfl

theorem fits_toJson (c : Composite) : c.toJson.Fits := by
  simp [toJson, Field.fits_toJson]

end Composite

namespace TypeTable

theorem decoder_undoes : Undoes decoder toJson := map_entries Composite.decoder_undoes

theorem fits_toJson (t : TypeTable) : (toJson t).Fits := by
  refine Json.fits_obj.mpr fun m hm => ?_
  obtain ⟨e, -, rfl⟩ := List.mem_map.mp hm
  exact e.2.fits_toJson

end TypeTable

/-! ## Variables -/

namespace Variable

theorem names_sublist (v : Variable) :
    (([("address", .word v.address), ("type", v.type.toJson)]
      ++ Json.member? "name" .str v.name ++ Json.member? "value" .word v.value).map
        Prod.fst).Sublist ["address", "type", "name", "value"] := by
  simp only [List.map_append]
  exact ((List.Sublist.refl _).append (Json.sublist_member? "name" .str v.name)).append
    (Json.sublist_member? "value" .word v.value)

theorem decoder_undoes : Undoes decoder toJson := by
  intro v
  refine record_obj (by decide) v.names_sublist fun p hp => ?_
  rw [hp.need rfl (word_undoes v.address), hp.need rfl (DataType.decoder_undoes v.type),
    hp.get? (f := .str) (o := v.name) (by simp [List.lookup_cons, List.lookup_append])
      (fun s _ => text_undoes s) fun _ _ => nofun,
    hp.get? (f := .word) (o := v.value) (by simp [List.lookup_cons, List.lookup_append])
      (fun w _ => word_undoes w) fun _ _ => nofun]
  rfl

theorem fits_toJson (v : Variable) : v.toJson.Fits := by
  refine Json.fits_obj.mpr fun m hm => ?_
  simp only [List.mem_append, List.mem_cons, List.not_mem_nil, or_false, Json.mem_member?] at hm
  rcases hm with ((rfl | rfl) | ⟨s, -, rfl⟩) | ⟨w, -, rfl⟩
  · simp
  · exact v.type.fits_toJson
  · simp
  · simp

end Variable

/-! ## Code -/

namespace Operation

theorem decoder_undoes : Undoes decoder toJson := fun o =>
  name_str (show names.lookup o.label = some o by cases o <;> rfl) .direct

end Operation

namespace OperandKind

theorem decoder_undoes : Undoes decoder toJson := fun k =>
  name_str (show names.lookup k.label = some k by cases k <;> rfl) .direct

end OperandKind

namespace Operand

theorem decoder_undoes : Undoes decoder toJson := by
  intro o
  have hnames : (([("kind", o.kind.toJson)] ++ Json.member? "name" .str o.name
      ++ Json.member? "value" .word o.value).map Prod.fst).Sublist ["kind", "name", "value"] := by
    simp only [List.map_append]
    exact ((List.Sublist.refl _).append (Json.sublist_member? "name" .str o.name)).append
      (Json.sublist_member? "value" .word o.value)
  refine record_obj (by decide) hnames fun p hp => ?_
  rw [hp.need rfl (OperandKind.decoder_undoes o.kind),
    hp.get? (f := .str) (o := o.name) (by simp [List.lookup_cons, List.lookup_append])
      (fun s _ => text_undoes s) fun _ _ => nofun,
    hp.get? (f := .word) (o := o.value) (by simp [List.lookup_cons, List.lookup_append])
      (fun w _ => word_undoes w) fun _ _ => nofun]
  rfl

theorem fits_toJson (o : Operand) : o.toJson.Fits := by
  refine Json.fits_obj.mpr fun m hm => ?_
  simp only [List.mem_append, List.mem_cons, List.not_mem_nil, or_false, Json.mem_member?] at hm
  rcases hm with (rfl | ⟨s, -, rfl⟩) | ⟨w, -, rfl⟩
  all_goals simp [OperandKind.toJson]

end Operand

namespace Instruction

theorem decoder_undoes : Undoes decoder toJson := by
  intro i
  refine record_obj (by decide) (.refl _) fun p hp => ?_
  rw [hp.need rfl (word_undoes i.index), hp.need rfl (word_undoes i.address),
    hp.need rfl (Operation.decoder_undoes i.operation),
    hp.getD rfl (list_undoes Operand.decoder_undoes i.operands)]
  rfl

theorem fits_toJson (i : Instruction) : i.toJson.Fits := by
  simp [toJson, Operation.toJson, Operand.fits_toJson]

end Instruction

namespace Block

theorem decoder_undoes : Undoes decoder toJson := by
  intro b
  refine record_obj (by decide) (.refl _) fun p hp => ?_
  rw [hp.need rfl (word_undoes b.start),
    hp.need rfl (list_undoes Instruction.decoder_undoes b.instructions)]
  rfl

theorem fits_toJson (b : Block) : b.toJson.Fits := by
  simp [toJson, Instruction.fits_toJson]

end Block

namespace CodeReference

theorem decoder_undoes : Undoes decoder toJson := by
  intro r
  refine record_obj (by decide) (.refl _) fun p hp => ?_
  rw [hp.need rfl (word_undoes r.codeAddress), hp.need rfl (word_undoes r.dataAddress)]
  rfl

theorem fits_toJson (r : CodeReference) : r.toJson.Fits := by
  simp [toJson]

end CodeReference

/-! ## Snapshots -/

namespace Snapshot

/-- **Every snapshot is read back from the tree of its form.** -/
theorem decoder_undoes : Undoes decoder toJson := by
  intro s
  have hnames : ((Json.member? "arch" Architecture.toJson s.arch
      ++ [("segments", .list Segment.toJson s.segments),
        ("sections", .list Region.toJson s.sections), ("types", TypeTable.toJson s.types),
        ("data_vars", .list Variable.toJson s.declared),
        ("code_refs", .list CodeReference.toJson s.references),
        ("blocks", .list Block.toJson s.blocks)]).map Prod.fst).Sublist
      ["arch", "segments", "sections", "types", "data_vars", "code_refs", "blocks"] := by
    rw [List.map_append]
    exact (Json.sublist_member? "arch" Architecture.toJson s.arch).append (.refl _)
  refine record_obj (by decide) hnames fun p hp => ?_
  rw [hp.get? (f := Architecture.toJson) (o := s.arch)
      (by
        rw [List.lookup_append, Json.lookup_member?]
        exact Option.or_none)
      (fun a _ => Architecture.decoder_undoes a) fun _ _ => nofun,
    hp.getD (by simp [List.lookup_append]) (list_undoes Segment.decoder_undoes s.segments),
    hp.getD (by simp [List.lookup_cons, List.lookup_append])
      (list_undoes (Region.decoder_undoes .direct) s.sections),
    hp.getD (by simp [List.lookup_cons, List.lookup_append]) (TypeTable.decoder_undoes s.types),
    hp.getD (by simp [List.lookup_cons, List.lookup_append])
      (list_undoes Variable.decoder_undoes s.declared),
    hp.getD (by simp [List.lookup_cons, List.lookup_append])
      (list_undoes CodeReference.decoder_undoes s.references),
    hp.getD (by simp [List.lookup_cons, List.lookup_append])
      (list_undoes Block.decoder_undoes s.blocks)]
  rfl

theorem fits_toJson (s : Snapshot) : s.toJson.Fits := by
  refine Json.fits_obj.mpr fun m hm => ?_
  simp only [List.mem_append, List.mem_cons, List.not_mem_nil, or_false, Json.mem_member?] at hm
  rcases hm with ⟨a, -, rfl⟩ | rfl | rfl | rfl | rfl | rfl | rfl
  · exact a.fits_toJson
  · simp [Segment.fits_toJson]
  · simp [Region.fits_toJson]
  · exact TypeTable.fits_toJson s.types
  · simp [Variable.fits_toJson]
  · simp [CodeReference.fits_toJson]
  · simp [Block.fits_toJson]

end Snapshot

end SliceRecovery
