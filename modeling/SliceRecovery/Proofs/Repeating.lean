import SliceRecovery.Proofs.Account
import SliceRecovery.Proofs.UndoUnits

/-!
# SliceRecovery.Proofs.Repeating -- runs that follow one another

No run makes a pointer. A data run declares characters and instances of the slice type, a code run
declares characters, and both remove what those overlap; so whatever runs come after, the pointers
that are declared are some of those that were. Memory is never written, hence a pointer that is
still there is still the same candidate. A pair that was accepted has become an instance of the
slice type, and no later run will find a pointer in its place.
-/

namespace SliceRecovery

namespace Analysis

variable {h i j : Analysis} {config : RecoveryConfig} {arch : Architecture} {a : Address}
  {type : DataType} {name : Option String} {r : SliceRecord} {v : Variable}

/-! ## Later analyses -/

/-- `i` may have come about from `h` by runs: it is the same binary, it has no pointer that `h` has
not, and no named type has gone. -/
structure Later (h i : Analysis) : Prop where
  arch_eq : i.arch = h.arch
  segments_eq : i.segments = h.segments
  sections_eq : i.sections = h.sections
  pointers : ∀ v ∈ i.declared.values, v.type.kind = .pointer → v ∈ h.declared.values
  names : ∀ n, h.hasType n = true → i.hasType n = true

/-- No pointer is declared at an address. -/
def PointerFree (h : Analysis) (a : Address) : Prop :=
  ∀ v ∈ h.declared.values, v.address = a → v.type.kind ≠ .pointer

namespace Later

theorem refl (h : Analysis) : Later h h := ⟨rfl, rfl, rfl, fun _ hv _ => hv, fun _ hn => hn⟩

theorem trans (hi : Later h i) (hj : Later i j) : Later h j where
  arch_eq := hj.arch_eq.trans hi.arch_eq
  segments_eq := hj.segments_eq.trans hi.segments_eq
  sections_eq := hj.sections_eq.trans hi.sections_eq
  pointers v hv hk := hi.pointers v (hj.pointers v hv hk) hk
  names n hn := hj.names n (hi.names n hn)

/-- Edits leave the binary alone, so only variables and types are to be looked at. -/
theorem of_frame (hf : Frame h i)
    (hp : ∀ v ∈ i.declared.values, v.type.kind = .pointer → v ∈ h.declared.values)
    (hn : ∀ n, h.hasType n = true → i.hasType n = true) : Later h i := by
  refine ⟨?_, ?_, ?_, hp, hn⟩
  · rw [hf.same]
  · rw [hf.same]
  · rw [hf.same]

theorem evict (h : Analysis) (a : Address) : Later h (h.evict a) := by
  refine .of_frame (frame_evict h a) (fun v hv _ => (mem_evict.mp hv).1) fun n hn => ?_
  rw [hasType_iff, types_evict]
  exact hn

/-- Only a declaration of a pointer makes one. -/
theorem define (hi : h.define a type name = .ok i) (ht : type.kind ≠ .pointer) : Later h i := by
  refine .of_frame (frame_define hi) (fun v hv hk => ?_) fun n hn => ?_
  · rcases (mem_define hi).mp hv with rfl | ⟨hold, -⟩
    · exact absurd hk ht
    · exact hold
  · rw [hasType_iff, types_define hi]
    exact hn

theorem ensureSliceType : Later h (h.ensureSliceType config arch).2 := by
  refine .of_frame frame_ensureSliceType (fun v hv _ => ?_) fun n hn => ?_
  · rwa [declared_ensureSliceType] at hv
  · rw [hasType_iff, types_ensureSliceType]
    split
    · exact hn
    · rw [OrderedMap.get?_insert]
      split
      · rfl
      · exact hn

theorem mark (hi : h.mark config arch r = .ok i) : Later h i := by
  obtain ⟨m, hm, hi⟩ := markSlice_eq_ok_iff.mp hi
  have hbytes : (DataType.text r.length).kind ≠ .pointer := nofun
  have hpair : (DataType.named config.sliceTypeName).kind ≠ .pointer := nofun
  exact ((ensureSliceType.trans (evict _ _)).trans (define hm hbytes)).trans (define hi hpair)

/-- The end of a run touches neither the binary nor variables and types. -/
theorem afterRun (config : RecoveryConfig) (hi : Later h i) (hj : i.commit = .ok j) :
    Later h (Analysis.afterRun config j) := by
  rw [afterRun_eq, commit_eq hj]
  exact ⟨hi.arch_eq, hi.segments_eq, hi.sections_eq, hi.pointers, hi.names⟩

theorem pointerFree (hi : Later h i) (hfree : h.PointerFree a) : i.PointerFree a :=
  fun v hv ha hk => hfree v (hi.pointers v hv hk) ha hk

/-- What memory says of a variable does not change. -/
theorem withValue_eq (hi : Later h i) (v : Variable) : i.withValue v = h.withValue v := by
  unfold withValue
  rw [hi.arch_eq, hi.segments_eq]

end Later

/-- Where a slice was declared no pointer is left. -/
theorem pointerFree_mark (hi : h.mark config arch r = .ok i) : i.PointerFree r.pointerAddress := by
  obtain ⟨m, -, hi⟩ := markSlice_eq_ok_iff.mp hi
  intro v hv ha hk
  rcases (mem_define hi).mp hv with rfl | ⟨-, hclash⟩
  · cases hk
  · exact hclash (Or.inl ha)

end Analysis

/-! ## Runs -/

namespace DataRun

variable {config : RecoveryConfig} {arch : Architecture} {h i : Analysis} {vs : List Verdict}
  {r : SliceRecord} {c : PointerCandidate}

theorem Trace.later (ht : Trace config arch h vs i) : Analysis.Later h i := by
  induction ht with
  | nil => exact .refl _
  | reject _ _ ih => exact ih
  | accept _ hm _ ih => exact (Analysis.Later.mark hm).trans ih

/-- No pointer is left at the address of an accepted one. -/
theorem Trace.pointerFree (ht : Trace config arch h vs i) (hr : r ∈ slices vs) :
    i.PointerFree r.pointerAddress := by
  induction ht with
  | nil => cases hr
  | reject _ _ ih => exact ih hr
  | accept _ hm htail ih =>
    rw [slices_accept] at hr
    rcases List.mem_cons.mp hr with rfl | hr
    · exact htail.later.pointerFree (Analysis.pointerFree_mark hm)
    · exact ih hr

/-- A candidate of a later analysis has been one all along. -/
theorem mem_candidates_of_later (hi : h.Later i) (hc : c ∈ candidates i arch) :
    c ∈ candidates h arch ∧ ¬ i.PointerFree c.source := by
  obtain ⟨v, hv, hvc⟩ := PointerCandidate.exists_of_mem_scan hc
  obtain ⟨u, hu, rfl⟩ := List.mem_map.mp hv
  obtain ⟨width, target, ht, -, -, hs, -⟩ := PointerCandidate.ofVariable?_eq_some_iff.mp hvc
  have hk : u.type.kind = .pointer := by
    rw [Analysis.withValue_eq] at ht
    exact DataType.kind_eq_pointer_iff.mpr ⟨width, target, ht⟩
  constructor
  · -- the same variable with the same value from the same memory, in the same working set
    refine List.mem_filterMap.mpr ⟨h.withValue u, List.mem_map_of_mem (hi.pointers u hu hk), ?_⟩
    rw [← hi.withValue_eq, ← hvc]
    unfold Analysis.segmentRegions
    rw [hi.segments_eq, hi.sections_eq]
  · intro hfree
    rw [hs, Analysis.address_withValue] at hfree
    exact hfree u hu rfl hk

end DataRun

theorem CodeRun.Trace.later {h i : Analysis} {vs : List Visit} (ht : Trace h vs i) :
    Analysis.Later h i := by
  induction ht with
  | nil => exact .refl _
  | keep _ _ ih => exact ih
  | resize _ hd _ ih =>
    have htext : ∀ n, (DataType.text n).kind ≠ .pointer := nofun
    exact (Analysis.Later.define hd (htext _)).trans ih

/-- The addresses of the pointers that a run accepted. -/
def RunOutcome.accepted (o : RunOutcome) : List Address :=
  match o.result with
  | .ok r => r.slices.map SliceRecord.pointerAddress
  | .error _ => []

namespace RunOutcome

variable {o : RunOutcome} {result : RunResult} {error : RecoveryError}

theorem accepted_eq (hr : o.result = .ok result) :
    o.accepted = result.slices.map SliceRecord.pointerAddress := by
  unfold accepted
  rw [hr]

theorem accepted_eq_nil (hr : o.result = .error error) : o.accepted = [] := by
  unfold accepted
  rw [hr]

end RunOutcome

namespace Analysis

variable {h i : Analysis} {q : RunSettings} {qs : List RunSettings} {a : Address}
  {c : PointerCandidate} {result : RunResult}

/-- The pointer candidates that a data run finds in an analysis. -/
def pointerCandidates (h : Analysis) : List PointerCandidate :=
  match h.arch with
  | none => []
  | some arch => DataRun.candidates h arch

/-- The addresses that several runs accepted, one run after the other. -/
def acceptedBy (h : Analysis) : List RunSettings → List Address
  | [] => []
  | q :: qs => (h.outcome q).accepted ++ (h.perform q).acceptedBy qs

theorem later_perform (h : Analysis) (q : RunSettings) : h.Later (h.perform q) := by
  have hopen : h.Later (h.withBatch (some [])) := ⟨rfl, rfl, rfl, fun _ hv _ => hv, fun _ hn => hn⟩
  obtain ⟨mode, config, cancellation⟩ := q
  cases mode with
  | readOnlyData =>
    show h.Later (DataRun.run config cancellation h).analysis
    cases hr : (DataRun.run config cancellation h).result with
    | error e =>
      rw [DataRun.run_eq_error hr]
      exact .refl h
    | ok result =>
      obtain ⟨arch, -, ⟨-, hsame⟩ | ⟨vs, rest, i, j, -, -, ht, -, -, hj, hafter⟩⟩ :=
        DataRun.run_eq_ok hr
      · rw [hsame]
        exact .refl h
      · rw [hafter]
        exact (hopen.trans ht.later).afterRun config hj
  | code =>
    show h.Later (CodeRun.run config cancellation h).analysis
    cases hr : (CodeRun.run config cancellation h).result with
    | error e =>
      rw [CodeRun.run_eq_error hr]
      exact .refl h
    | ok result =>
      obtain ⟨-, hsame⟩ | ⟨vs, rest, i, j, -, -, ht, -, -, hj, hafter⟩ := CodeRun.run_eq_ok hr
      · rw [hsame]
        exact .refl h
      · rw [hafter]
        exact (hopen.trans ht.later).afterRun config hj

theorem later_performAll (h : Analysis) (qs : List RunSettings) : h.Later (h.performAll qs) := by
  induction qs generalizing h with
  | nil => exact .refl h
  | cons q qs ih => exact (h.later_perform q).trans (ih (h.perform q))

/-- What a run accepted was accepted along the trace of a data run. -/
theorem accepted_cases (h : Analysis) (q : RunSettings) :
    (h.outcome q).accepted = [] ∨
      ∃ arch vs rest i j, h.arch = some arch ∧
        DataRun.candidates h arch = vs.map DataRun.Verdict.candidate ++ rest ∧
        DataRun.Trace q.config arch (h.withBatch (some [])) vs i ∧ i.commit = .ok j ∧
        h.perform q = afterRun q.config j ∧
        (h.outcome q).accepted = (DataRun.slices vs).map SliceRecord.pointerAddress := by
  cases hr : (h.outcome q).result with
  | error e => exact Or.inl (RunOutcome.accepted_eq_nil hr)
  | ok result =>
    rw [RunOutcome.accepted_eq hr]
    obtain ⟨mode, config, cancellation⟩ := q
    cases mode with
    | readOnlyData =>
      have hr : (DataRun.run config cancellation h).result = .ok result := hr
      obtain ⟨arch, harch, ⟨rfl, -⟩ | ⟨vs, rest, i, j, -, hcs, ht, hres, -, hj, hafter⟩⟩ :=
        DataRun.run_eq_ok hr
      · exact Or.inl rfl
      · refine Or.inr ⟨arch, vs, rest, i, j, harch, hcs, ht, hj, hafter, ?_⟩
        rw [hres]
        rfl
    | code =>
      have hr : (CodeRun.run config cancellation h).result = .ok result := hr
      obtain ⟨rfl, -⟩ | ⟨vs, rest, i, j, -, -, -, hres, -⟩ := CodeRun.run_eq_ok hr
      · exact Or.inl rfl
      · rw [hres]
        exact Or.inl rfl

/-- A run accepts some of the candidates that it finds, each once. -/
theorem accepted_sublist (h : Analysis) (q : RunSettings) :
    (h.outcome q).accepted.Sublist (h.pointerCandidates.map PointerCandidate.source) := by
  rcases h.accepted_cases q with hnil | ⟨arch, vs, rest, i, j, harch, hcs, ht, -, -, haccepted⟩
  · rw [hnil]
    exact List.nil_sublist _
  · have hsources : h.pointerCandidates.map PointerCandidate.source =
        (vs.map fun v => v.candidate.source) ++ rest.map PointerCandidate.source := by
      unfold pointerCandidates
      rw [harch]
      dsimp only
      rw [hcs, List.map_append, List.map_map]
      rfl
    rw [haccepted, hsources]
    exact ht.sublist_slices.trans (List.sublist_append_left _ _)

theorem nodup_accepted (h : Analysis) (q : RunSettings) : (h.outcome q).accepted.Nodup := by
  refine (h.accepted_sublist q).nodup ?_
  unfold pointerCandidates
  cases h.arch with
  | none => exact List.nodup_nil
  | some arch =>
    dsimp only
    unfold DataRun.candidates
    rw [PointerCandidate.sources_scan]
    exact h.ascending_readOnlyPointers.imp UInt64.ne_of_lt

/-- A candidate of a later analysis has been one all along, and its pointer is still there. -/
theorem mem_pointerCandidates_of_later (hi : h.Later i) (hc : c ∈ i.pointerCandidates) :
    c ∈ h.pointerCandidates ∧ ¬ i.PointerFree c.source := by
  unfold pointerCandidates at hc ⊢
  rw [hi.arch_eq] at hc
  cases harch : h.arch with
  | none =>
    rw [harch] at hc
    cases hc
  | some arch =>
    rw [harch] at hc
    exact DataRun.mem_candidates_of_later hi hc

/-- What a run accepts was a pointer before it. -/
theorem not_pointerFree_of_accepted (ha : a ∈ (h.outcome q).accepted) : ¬ h.PointerFree a := by
  obtain ⟨c, hc, rfl⟩ := List.mem_map.mp ((h.accepted_sublist q).subset ha)
  exact (mem_pointerCandidates_of_later (.refl h) hc).2

/-- What a run accepts is no pointer after it. -/
theorem pointerFree_of_accepted (ha : a ∈ (h.outcome q).accepted) :
    (h.perform q).PointerFree a := by
  rcases h.accepted_cases q with hnil | ⟨arch, vs, rest, i, j, -, -, ht, hj, hafter, haccepted⟩
  · rw [hnil] at ha
    cases ha
  · rw [haccepted] at ha
    obtain ⟨r, hr, rfl⟩ := List.mem_map.mp ha
    rw [hafter]
    exact ((Later.refl i).afterRun q.config hj).pointerFree (ht.pointerFree hr)

/-- After a run that accepted something the slice type is there. -/
theorem hasType_of_accepted (ha : (h.outcome q).accepted ≠ []) :
    (h.perform q).hasType q.config.sliceTypeName = true := by
  rcases h.accepted_cases q with hnil | ⟨arch, vs, rest, i, j, -, -, ht, hj, hafter, haccepted⟩
  · exact absurd hnil ha
  · have hne : DataRun.slices vs ≠ [] := by
      intro hnil
      rw [haccepted, hnil] at ha
      exact ha rfl
    rw [hafter]
    exact ((Later.refl i).afterRun q.config hj).names _ (ht.width_of_slices hne).1

/-- A run does not define the slice type where it is there. -/
theorem not_created_of_hasType (hn : h.hasType q.config.sliceTypeName = true)
    (hr : (h.outcome q).result = .ok result) : result.sliceTypeCreated = false := by
  obtain ⟨mode, config, cancellation⟩ := q
  cases mode with
  | readOnlyData =>
    have hr : (DataRun.run config cancellation h).result = .ok result := hr
    obtain ⟨arch, harch, ⟨rfl, -⟩ | ⟨vs, rest, i, j, -, -, -, hres, -⟩⟩ := DataRun.run_eq_ok hr
    · rfl
    · have hn : h.hasType config.sliceTypeName = true := hn
      rw [hres]
      show (if ([] : List SliceRecord) = [] ∧ DataRun.slices vs ≠ [] then
        !h.hasType config.sliceTypeName else false) = false
      rw [hn]
      exact ite_self false
  | code =>
    have hr : (CodeRun.run config cancellation h).result = .ok result := hr
    obtain ⟨rfl, -⟩ | ⟨vs, rest, i, j, -, -, -, hres, -⟩ := CodeRun.run_eq_ok hr
    · rfl
    · rw [hres]

/-! ## Many runs -/

/-- What several runs accepted were pointers before them. -/
theorem not_pointerFree_of_acceptedBy (ha : a ∈ h.acceptedBy qs) : ¬ h.PointerFree a := by
  induction qs generalizing h with
  | nil => cases ha
  | cons q qs ih =>
    rcases List.mem_append.mp ha with ha | ha
    · exact not_pointerFree_of_accepted ha
    · exact fun hfree => ih ha ((h.later_perform q).pointerFree hfree)

/-- What several runs accepted are no pointers after them. -/
theorem pointerFree_of_acceptedBy (ha : a ∈ h.acceptedBy qs) : (h.performAll qs).PointerFree a := by
  induction qs generalizing h with
  | nil => cases ha
  | cons q qs ih =>
    rcases List.mem_append.mp ha with ha | ha
    · exact ((h.perform q).later_performAll qs).pointerFree (pointerFree_of_accepted ha)
    · exact ih ha

theorem nodup_acceptedBy (h : Analysis) (qs : List RunSettings) : (h.acceptedBy qs).Nodup := by
  induction qs generalizing h with
  | nil => exact List.nodup_nil
  | cons q qs ih =>
    refine List.nodup_append.mpr ⟨h.nodup_accepted q, ih (h.perform q), fun a ha b hb hab => ?_⟩
    -- what the first run accepted is no pointer any more, what the others accept still is one
    rw [← hab] at hb
    exact not_pointerFree_of_acceptedBy hb (pointerFree_of_accepted ha)

/-- What a run with settings `q` on `first` and a later one with settings `q'` on `second` have to
do with each other, when the runs from the one up to the other accepted the addresses `accepted`. -/
structure NoRepeat (first second : Analysis) (accepted : List Address) (q q' : RunSettings) :
    Prop where
  /-- No pointer is accepted by both. -/
  addresses : ∀ a ∈ (first.outcome q).accepted, a ∉ (second.outcome q').accepted
  /-- The later one finds none but candidates of the other that have not been accepted since. -/
  candidates : ∀ c ∈ second.pointerCandidates, c ∈ first.pointerCandidates ∧ c.source ∉ accepted
  /-- After an accepted slice its type is not defined again. -/
  created : (first.outcome q).accepted ≠ [] → q'.config.sliceTypeName = q.config.sliceTypeName →
    ∀ result, (second.outcome q').result = .ok result → result.sliceTypeCreated = false

/-- **No pair is recovered twice.** Whatever the analysis, and whatever runs follow one another on
it: no address is accepted more than once in all of them, the candidates that are found become fewer
by what is accepted, and the slice type is not defined again once a slice of it was declared. -/
theorem runs_never_repeat (h : Analysis) (qs : List RunSettings) :
    (h.acceptedBy qs).Nodup ∧
      ∀ before q mid q' after, qs = before ++ q :: (mid ++ q' :: after) →
        NoRepeat (h.performAll before) ((h.performAll before).performAll (q :: mid))
          ((h.performAll before).acceptedBy (q :: mid)) q q' := by
  refine ⟨h.nodup_acceptedBy qs, fun before q mid q' after _ => ?_⟩
  generalize h.performAll before = first
  have hlater : (first.perform q).Later (first.performAll (q :: mid)) :=
    (first.perform q).later_performAll mid
  refine ⟨fun a ha ha' => ?_, fun c hc => ?_, fun ha hname result hr => ?_⟩
  · exact not_pointerFree_of_accepted ha' (hlater.pointerFree (pointerFree_of_accepted ha))
  · obtain ⟨hfirst, hthere⟩ :=
      mem_pointerCandidates_of_later (first.later_performAll (q :: mid)) hc
    exact ⟨hfirst, fun ha => hthere (pointerFree_of_acceptedBy ha)⟩
  · refine not_created_of_hasType ?_ hr
    rw [hname]
    exact hlater.names _ (hasType_of_accepted ha)

/-- A data run that is cancelled after its first pointer, a code run, and a data run that is left
with the second pointer. -/
theorem never_repeat_nestedStrings :
    nestedStrings.acceptedBy
        [⟨.readOnlyData, {}, some 3⟩, ⟨.code, {}, none⟩, ⟨.readOnlyData, {}, none⟩] =
      [0x2000, 0x2010] ∧
    NoRepeat nestedStrings
      (nestedStrings.performAll [⟨.readOnlyData, {}, some 3⟩, ⟨.code, {}, none⟩]) [0x2000]
      ⟨.readOnlyData, {}, some 3⟩ ⟨.readOnlyData, {}, none⟩ :=
  ⟨rfl, (runs_never_repeat nestedStrings _).2 [] _ [⟨.code, {}, none⟩] _ [] rfl⟩

end Analysis
end SliceRecovery
