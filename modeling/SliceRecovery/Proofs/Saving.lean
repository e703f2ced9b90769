import SliceRecovery.Proofs.Batches
import SliceRecovery.Proofs.Forms
import SliceRecovery.Proofs.LoadedRegions
import SliceRecovery.Proofs.Repeating

/-!
# SliceRecovery.Proofs.Saving -- what is saved is what is loaded again

An analysis is saved as the text of its snapshot. Loading sets the kind of every region by the list
that it stands in, so nothing is lost just when the kinds are those already. However an analysis was
made they are: memory is filled by setting up, by loading a file and by adding a region, each of
which sets the kinds, and no edit, batch or run writes to it.
-/

namespace SliceRecovery

/-! ## Kinds of regions -/

theorem Region.listed_eq_self {r : Region} (hr : r.kind = .sectionEntry) : r.listed = r := by
  unfold listed
  rw [← hr]

theorem Segment.listed_eq_self {s : Segment} (hs : s.region.kind = .segment) : s.listed = s := by
  unfold listed
  rw [← hs]

/-- Every region has the kind of the list that it stands in. -/
structure KindsMatch (segments : List Segment) (sections : List Region) : Prop where
  segments : ∀ s ∈ segments, s.region.kind = .segment
  sections : ∀ r ∈ sections, r.kind = .sectionEntry

namespace KindsMatch

variable {segments : List Segment} {sections : List Region}

theorem map_segments (hs : KindsMatch segments sections) : segments.map Segment.listed = segments :=
  (List.map_congr_left fun s hm => Segment.listed_eq_self (hs.segments s hm)).trans
    (List.map_id' _)

theorem map_sections (hs : KindsMatch segments sections) : sections.map Region.listed = sections :=
  (List.map_congr_left fun r hm => Region.listed_eq_self (hs.sections r hm)).trans
    (List.map_id' _)

/-- Setting up sorts the regions. -/
theorem map_listed (segments : List Segment) (sections : List Region) :
    KindsMatch (segments.map Segment.listed) (sections.map Region.listed) where
  segments := List.forall_mem_map.mpr fun _ _ => rfl
  sections := List.forall_mem_map.mpr fun _ _ => rfl

end KindsMatch

/-! ## Files -/

namespace ObjectFile

theorem Headers.kindsMatch_image (f : Headers) (bytes : List UInt8) :
    KindsMatch (f.image bytes).segments (f.image bytes).sections where
  segments := by
    intro s hs
    obtain ⟨x, -, hx⟩ := f.exists_entry hs
    obtain ⟨_, -, -, rfl⟩ := segment?_eq_some_iff.mp hx
    rfl
  sections := by
    intro r hr
    obtain ⟨_, _, _, _, hr⟩ := f.exists_section? hr
    obtain ⟨_, -, -, rfl⟩ := section?_eq_some_iff.mp hr
    rfl

/-- Of whatever format a file is, its view is sorted. -/
theorem kindsMatch_load {bytes : List UInt8} {i : ObjectImage} (hi : load bytes = .ok i) :
    KindsMatch i.segments i.sections := by
  obtain ⟨f, rfl⟩ := exists_headers_of_load hi
  exact f.kindsMatch_image bytes

end ObjectFile

/-! ## Changes -/

/-- Anything that changes an analysis. -/
inductive Change
  | image (bytes : List UInt8)
  | addSegment (r : Region) (bytes : List UInt8)
  | addSection (r : Region)
  | addVariable (a : Address) (type : DataType) (name : Option String)
  | addType (name : String) (c : Composite)
  | addReference (r : CodeReference)
  | addBlock (b : Block)
  | edit (c : EditCall)
  | begin
  | endBatch (ending : BatchEnd)
  | undo
  | requestPass
  | run (q : RunSettings)

namespace Analysis

/-- The analysis after a change was asked for. -/
def change (h : Analysis) : Change → Analysis
  | .image bytes =>
    match ObjectFile.load bytes with
    | .ok i => h.withImage i
    | .error _ => h
  | .addSegment r bytes => h.addSegment r bytes
  | .addSection r => h.addSection r
  | .addVariable a type name => h.addVariable a type name
  | .addType name c => h.addType name c
  | .addReference r => h.addReference r
  | .addBlock b => h.addBlock b
  | .edit c => h.edit c
  | .begin => h.orSame h.begin
  | .endBatch ending => h.orSame (h.endBatch ending)
  | .undo => h.undo?.getD h
  | .requestPass => h.requestPass
  | .run q => h.perform q

/-- The analysis after several changes were asked for. -/
def changes (h : Analysis) (cs : List Change) : Analysis := cs.foldl change h

/-- An analysis as it is set up, with an architecture at most or from a snapshot. -/
inductive Fresh : Analysis → Prop
  | bare (arch : Option Architecture) : Fresh { arch }
  | loaded {s : Snapshot} {h : Analysis} : ofSnapshot s = .ok h → Fresh h

/-- An analysis that was set up and then changed in any way. -/
def Made (h : Analysis) : Prop := ∃ i cs, Fresh i ∧ i.changes cs = h

/-- The analysis between sessions: no batch is open and nothing is there to be undone. -/
def atRest (h : Analysis) : Analysis := { h with batch := none, history := [], passes := 0 }

/-- The analysis with the kinds of its regions set by the list that they stand in. -/
def listed (h : Analysis) : Analysis :=
  { h with segments := h.segments.map Segment.listed, sections := h.sections.map Region.listed }

/-- Every region of the analysis has the kind of the list that it stands in. -/
def Tidy (h : Analysis) : Prop := KindsMatch h.segments h.sections

variable {h i : Analysis}

theorem Tidy.listed (hs : h.Tidy) : h.listed = h := by
  unfold Analysis.listed
  rw [hs.map_segments, hs.map_sections]

theorem Tidy.of_frame (hs : h.Tidy) (hf : Frame h i) : i.Tidy := by
  unfold Tidy
  rw [hf.same]
  exact hs

theorem Tidy.orSame {answer : Except AnalysisError Analysis} (hs : h.Tidy)
    (hok : ∀ i, answer = .ok i → i.Tidy) : (h.orSame answer).Tidy := by
  cases answer with
  | error e => exact hs
  | ok i => exact hok i rfl

theorem tidy_rollBack {es : List Edit} : (h.rollBack es).Tidy ↔ h.Tidy := by
  rw [rollBack_eq]
  rfl

theorem Tidy.edit (hs : h.Tidy) (c : EditCall) : (h.edit c).Tidy := by
  cases c with
  | define a type name => exact hs.orSame fun i hi => hs.of_frame (frame_define hi)
  | undefine a =>
    refine hs.orSame fun i hi => ?_
    rcases undefine_cases h a with hok | ⟨⟨e, he⟩, -⟩
    · rw [hok] at hi
      cases hi
      exact hs.of_frame (frame_evict h a)
    · rw [he] at hi
      cases hi
  | defineType name c => exact hs

theorem Tidy.endBatch (hs : h.Tidy) (ending : BatchEnd) :
    (h.orSame (h.endBatch ending)).Tidy := by
  refine hs.orSame fun i hi => ?_
  cases ending with
  | commit =>
    rw [commit_eq hi]
    exact hs
  | revert =>
    change h.revert = .ok i at hi
    unfold revert at hi
    split at hi
    · cases hi
    · cases hi
      exact tidy_rollBack.mpr hs

theorem Tidy.undo (hs : h.Tidy) : (h.undo?.getD h).Tidy := by
  unfold undo?
  split
  · exact hs
  · exact tidy_rollBack.mpr hs

/-- No change leaves a region of the wrong kind. -/
theorem Tidy.change (hs : h.Tidy) (c : Change) : (h.change c).Tidy := by
  cases c with
  -- the first three fill memory, and set the kinds
  | image bytes =>
    show Tidy (match ObjectFile.load bytes with | .ok i => h.withImage i | .error _ => h)
    cases hi : ObjectFile.load bytes with
    | ok i => exact ObjectFile.kindsMatch_load hi
    | error f => exact hs
  | addSegment r bytes =>
    refine ⟨fun s hm => ?_, hs.sections⟩
    rcases List.mem_append.mp hm with hm | hm
    · exact hs.segments s hm
    · cases List.mem_singleton.mp hm
      rfl
  | addSection r =>
    refine ⟨hs.segments, fun s hm => ?_⟩
    rcases List.mem_append.mp hm with hm | hm
    · exact hs.sections s hm
    · cases List.mem_singleton.mp hm
      rfl
  -- what follows leaves memory alone
  | addVariable a type name => exact hs
  | addType name c => exact hs
  | addReference r => exact hs
  | addBlock b => exact hs
  | edit c => exact hs.edit c
  | begin =>
    refine hs.orSame fun i hi => ?_
    obtain ⟨-, rfl⟩ := begin_eq_ok_iff.mp hi
    exact hs
  | endBatch ending => exact hs.endBatch ending
  | undo => exact hs.undo
  | requestPass => exact hs
  | run q =>
    show KindsMatch (h.perform q).segments (h.perform q).sections
    rw [(h.later_perform q).segments_eq, (h.later_perform q).sections_eq]
    exact hs

theorem Tidy.changes (hs : h.Tidy) (cs : List Change) :
    (h.changes cs).Tidy := by
  induction cs generalizing h with
  | nil => exact hs
  | cons c cs ih => exact ih (hs.change c)

theorem Fresh.tidy (hf : Fresh h) : h.Tidy := by
  cases hf with
  | bare arch => exact .map_listed [] []
  | loaded hs =>
    obtain ⟨-, rfl⟩ := ofSnapshot_eq_ok_iff.mp hs
    exact .map_listed _ _

/-- **However an analysis was made, its regions have the kinds of their lists.** -/
theorem Made.tidy (hm : h.Made) : h.Tidy := by
  obtain ⟨i, cs, hf, rfl⟩ := hm
  exact hf.tidy.changes cs

end Analysis

/-! ## Saving and loading -/

/-- The form of a snapshot has no more arrays and objects within each other than are read. -/
def Snapshot.Shallow (s : Snapshot) : Prop :=
  (Json.Reading.ofJson s.toJson).depth ≤ Json.Reading.depthLimit

instance : DecidablePred Snapshot.Shallow := fun s =>
  inferInstanceAs (Decidable ((Json.Reading.ofJson s.toJson).depth ≤ Json.Reading.depthLimit))

/-- `t` is `s` with the kinds of its regions set by list and its variables by ascending address, of
those at one address only the last. -/
structure Snapshot.NormalForm (s t : Snapshot) : Prop where
  arch : t.arch = s.arch
  segments : t.segments = s.segments.map Segment.listed
  sections : t.sections = s.sections.map Region.listed
  types : t.types = s.types
  declared : Lists (fun v => (v.address.toNat : Int)) s.declared t.declared
  references : t.references = s.references
  blocks : t.blocks = s.blocks

namespace Analysis

variable {h : Analysis} {s : Snapshot}

/-- A snapshot of an analysis is set up again but for the kinds of its regions. -/
theorem ofSnapshot_toSnapshot (ha : h.toSnapshot.Accepted) :
    ofSnapshot h.toSnapshot = .ok h.listed.atRest := by
  refine ofSnapshot_eq_ok_iff.mpr ⟨ha, ?_⟩
  -- variables are stored as a listing of their table
  show _ = Analysis.mk _ _ _ _ (.ofList h.declared.values) _ _ none [] 0
  rw [VariableTable.ofList_values]
  rfl

/-- What is written of a snapshot is read as that snapshot. -/
theorem ofText_snapshot (hs : s.Shallow) (l : Json.Layout) :
    ofText (String.ofList (s.toJson.chars l)) = (ofSnapshot s).mapError .snapshot := by
  unfold ofText
  rw [Json.Decode.document_eq l s.fits_toJson hs, s.decoder_undoes]
  rfl

/-- The snapshot of an analysis that was set up from one is its normal form. -/
theorem normalForm_toSnapshot (hs : ofSnapshot s = .ok h) : s.NormalForm h.toSnapshot := by
  obtain ⟨-, rfl⟩ := ofSnapshot_eq_ok_iff.mp hs
  exact ⟨rfl, rfl, rfl, rfl, VariableTable.lists_ofList s.declared, rfl, rfl⟩

theorem accepted_toSnapshot (hs : ofSnapshot s = .ok h) : h.toSnapshot.Accepted := by
  obtain ⟨ha, rfl⟩ := ofSnapshot_eq_ok_iff.mp hs
  exact ⟨List.forall_mem_map.mpr ha.segments, List.forall_mem_map.mpr ha.sections⟩

/-- Setting up is done again from what it leaves. -/
theorem ofSnapshot_toSnapshot_self (hs : ofSnapshot s = .ok h) :
    ofSnapshot h.toSnapshot = .ok h := by
  have htidy : h.Tidy := (Fresh.loaded hs).tidy
  rw [ofSnapshot_toSnapshot (accepted_toSnapshot hs), htidy.listed]
  obtain ⟨-, rfl⟩ := ofSnapshot_eq_ok_iff.mp hs
  rfl

/-- **Saving and loading an analysis loses nothing.** Let every region hold an address and let the
form be no deeper than what is read. However the analysis was made, with a batch open or not, the
text of its snapshot in either layout sets up the same analysis, with no batch open and an empty
history. Whatever kinds the regions of an analysis have, the kinds of their lists come back in their
place and all else is the same. And the other way round: the snapshot of an analysis that was set up
from a snapshot is the normal form of that snapshot, and setting up from the normal form gives the
very same analysis, hence its snapshot again. -/
theorem saving_loses_nothing :
    (∀ (h : Analysis) (l : Json.Layout), h.toSnapshot.Accepted → h.toSnapshot.Shallow →
      ofText (String.ofList (h.toSnapshot.toJson.chars l)) = .ok h.listed.atRest ∧
        (h.Made → ofText (String.ofList (h.toSnapshot.toJson.chars l)) = .ok h.atRest)) ∧
    (∀ (s : Snapshot) (h : Analysis), ofSnapshot s = .ok h →
      s.NormalForm h.toSnapshot ∧ ofSnapshot h.toSnapshot = .ok h) := by
  refine ⟨fun h l ha hshallow => ?_, fun s h hs =>
    ⟨normalForm_toSnapshot hs, ofSnapshot_toSnapshot_self hs⟩⟩
  have hread : ofText (String.ofList (h.toSnapshot.toJson.chars l)) = .ok h.listed.atRest := by
    rw [ofText_snapshot hshallow, ofSnapshot_toSnapshot ha]
    rfl
  refine ⟨hread, fun hm => ?_⟩
  rw [hread, hm.tidy.listed]

/-- A string behind a pointer is recovered, and a batch is left open with edits in it. -/
def recoveredString : List Change := [
  .addSegment { start := 0x1000, stop := 0x1010, readable := true } [104, 101, 108, 108, 111],
  .addSegment { start := 0x2000, stop := 0x2020, readable := true, writable := true }
    [0, 0x10, 0, 0, 0, 0, 0, 0, 5],
  .addSection { start := 0x2000, stop := 0x2020, name := some "données", use := some .readWriteData },
  .addVariable 0x2000 (.pointerTo .char 8) (some "greeting\n"),
  .addReference ⟨0x4000, 0x2000⟩,
  .run ⟨.readOnlyData, {}, none⟩,
  .begin,
  .edit (.define 0x2010 (.array (.named "RustStringSlice") 1) none),
  .edit (.defineType "Pair" ⟨true, [⟨"first", .raw 2⟩]⟩)]

/-- A snapshot with a segment of the wrong kind and two variables at one address. -/
def unordered : Snapshot where
  segments := [⟨{ start := 0x1000, stop := 0x1010, kind := .sectionEntry }, [7]⟩]
  declared := [⟨0x1008, .char, some "third", none⟩, ⟨0x1000, .char, some "first", none⟩,
    ⟨0x1000, .unsigned 4, some "second", some 7⟩]

theorem reloaded_recoveredString :
    (∃ h : Analysis, h.Made ∧ h.toSnapshot.Accepted ∧ h.toSnapshot.Shallow ∧
      h.declared.keys = [0x1000, 0x2000, 0x2010] ∧ h.history.length = 1 ∧ h.batch.isSome ∧
      ofText (Json.compact h.toSnapshot.toJson) = .ok h.atRest) ∧
    ∃ h : Analysis, ofSnapshot unordered = .ok h ∧
      h.toSnapshot.declared.map Variable.name = [some "second", some "third"] ∧
      unordered.NormalForm h.toSnapshot ∧ ofSnapshot h.toSnapshot = .ok h := by
  constructor
  · obtain ⟨h, hchanges⟩ : ∃ h, changes { arch := some (.ofWordSize "x86_64" 8 .little) }
        recoveredString = h := ⟨_, rfl⟩
    have hmade : h.Made := ⟨_, _, .bare _, hchanges⟩
    have haccepted : h.toSnapshot.Accepted := by
      subst hchanges
      exact ⟨by decide +kernel, by decide +kernel⟩
    have hshallow : h.toSnapshot.Shallow := by
      subst hchanges
      decide +kernel
    have hkeys : h.declared.keys = [0x1000, 0x2000, 0x2010] := by
      subst hchanges
      decide +kernel
    have hhistory : h.history.length = 1 ∧ h.batch.isSome := by
      subst hchanges
      decide +kernel
    have hread := (saving_loses_nothing.1 h .compact haccepted hshallow).2 hmade
    exact ⟨h, hmade, haccepted, hshallow, hkeys, hhistory.1, hhistory.2, hread⟩
  · obtain ⟨h, hs⟩ : ∃ h, ofSnapshot unordered = .ok h := ⟨_, rfl⟩
    have hnames : h.toSnapshot.declared.map Variable.name = [some "second", some "third"] := by
      cases hs
      decide +kernel
    exact ⟨h, hs, hnames, saving_loses_nothing.2 unordered h hs⟩

end Analysis
end SliceRecovery
