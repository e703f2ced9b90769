import SliceRecovery.Proofs.Account
import SliceRecovery.Proofs.FinalVariables

/-!
# SliceRecovery.Proofs.Independence -- candidates do not disturb each other

Every candidate of a data run is looked at in the analysis that the declarations for the candidates
before it left. Of that analysis it reads memory, which no declaration touches, and one variable:
the one that starts at its length field. So what becomes of a candidate is what would have become of
it before the run, unless one of those declarations put something at that address or took away what
stood there. Even then the length field decides only whether there is a conflict: the string that is
accepted, or any other reason to reject it, is that of the memory alone.
-/

namespace SliceRecovery

variable {config : RecoveryConfig} {cancellation : Cancellation} {arch : Architecture}
  {h i j : Analysis} {types : TypeTable} {limit : UInt64} {result : RunResult}
  {c : PointerCandidate} {r : SliceRecord} {a : Address}

/-! ## What a candidate reads -/

/-- The analysis without the variable that starts at an address. -/
def Analysis.undeclared (h : Analysis) (a : Address) : Analysis :=
  { h with declared := h.declared.erase a }

theorem Analysis.get?_undeclared (h : Analysis) (a : Address) :
    (h.undeclared a).declared.get? a = none := by
  show (h.declared.erase a).get? a = none
  rw [VariableTable.get?_erase, if_pos rfl]

namespace PointerCandidate

/-- A candidate reads memory and the variable that starts at its length field, and nothing else. -/
theorem resolve_congr (hs : i.segments = h.segments)
    (hd : i.declared.get? c.lengthAddress = h.declared.get? c.lengthAddress) :
    c.resolve i arch limit = c.resolve h arch limit := by
  unfold resolve resolveLength
  rw [hs, hd]

/-- A variable at the length field that is no integer is a conflict. -/
theorem resolve_of_conflict {v : Variable} (hv : h.declared.get? c.lengthAddress = some v)
    (hk : v.type.kind ≠ .integer) :
    c.resolve h arch limit = .error (.conflictingType c.lengthAddress v.type.kind) := by
  unfold resolve resolveLength
  rw [hv]
  dsimp only
  rw [if_neg hk]
  rfl

/-- Without a variable at the length field the outcome is that of the memory alone. -/
theorem resolve_of_none (hv : h.declared.get? c.lengthAddress = none) :
    c.resolve h arch limit = c.resolve (h.undeclared c.lengthAddress) arch limit :=
  resolve_congr rfl (hv.trans (h.get?_undeclared _).symm)

/-- A variable at the length field either is in conflict or makes no difference. -/
theorem resolve_cases (h : Analysis) (arch : Architecture) (limit : UInt64)
    (c : PointerCandidate) :
    (∃ kind, c.resolve h arch limit = .error (.conflictingType c.lengthAddress kind)) ∨
      c.resolve h arch limit = c.resolve (h.undeclared c.lengthAddress) arch limit := by
  cases hv : h.declared.get? c.lengthAddress with
  | none => exact Or.inr (resolve_of_none hv)
  | some v =>
    by_cases hk : v.type.kind = .integer
    · refine Or.inr ?_
      unfold resolve resolveLength
      rw [hv, h.get?_undeclared]
      dsimp only
      rw [if_pos hk]
      rfl
    · exact Or.inl ⟨_, resolve_of_conflict hv hk⟩

end PointerCandidate

/-! ## Variables that declarations leave alone -/

/-- One of the declarations `ps` on a table adds, replaces or removes the variable that starts at an
address: it is made at that address, or it overlaps the variable that stood there. -/
def VariableTable.Touched (types : TypeTable) (t : VariableTable) (ps : List Variable)
    (a : Address) : Prop :=
  ∃ p ∈ ps, p.address = a ∨ ∃ u, t.get? a = some u ∧ u.Overlap types p

/-- At an address that is not touched the same variable stands as before. -/
theorem VariableTable.get?_of_not_touched {t t' : VariableTable} {ps : List Variable}
    (hstands : ∀ u, u ∈ t'.values ↔ u.Stands types t ps) (hnot : ¬ t.Touched types ps a) :
    t'.get? a = t.get? a := by
  have hiff : ∀ u, t'.get? a = some u ↔ t.get? a = some u := by
    intro u
    constructor
    · intro hu
      have hua := address_of_get? hu
      subst hua
      rcases (hstands u).mp (mem_values_iff.mpr hu) with ⟨earlier, later, rfl, -⟩ | ⟨hu, -⟩
      · -- a declaration that lasts was made at the address
        exact absurd ⟨u, List.mem_append_right _ List.mem_cons_self, Or.inl rfl⟩ hnot
      · exact mem_values_iff.mp hu
    · intro hu
      have hua := address_of_get? hu
      subst hua
      refine mem_values_iff.mp ((hstands u).mpr (Or.inr ⟨mem_values_iff.mpr hu, ?_⟩))
      rintro p hp (haddress | hover)
      · exact hnot ⟨p, hp, Or.inl haddress.symm⟩
      · exact hnot ⟨p, hp, Or.inr ⟨u, hu, hover⟩⟩
  exact Option.ext hiff

/-- At an address that is touched nothing stands but one of the declarations. -/
theorem VariableTable.mem_of_touched {t t' : VariableTable} {ps : List Variable} {u : Variable}
    (hstands : ∀ u, u ∈ t'.values ↔ u.Stands types t ps) (ht : t.Touched types ps a)
    (hu : t'.get? a = some u) : u ∈ ps := by
  have hua := address_of_get? hu
  subst hua
  rcases (hstands u).mp (mem_values_iff.mpr hu) with ⟨earlier, later, rfl, -⟩ | ⟨hold, hclash⟩
  · exact List.mem_append_right _ List.mem_cons_self
  · -- what stood there before clashes with the declaration that touches it
    obtain ⟨p, hp, haddress | ⟨v, hv, hover⟩⟩ := ht
    · exact absurd (Or.inl haddress.symm) (hclash p hp)
    · rw [mem_values_iff.mp hold] at hv
      cases hv
      exact absurd (Or.inr hover) (hclash p hp)

/-- What a run declares is an array or an instance of a composite type. -/
theorem SliceRecord.kind_of_mem_annotations {u : Variable} (hu : u ∈ r.annotations config) :
    u.type.kind = .array ∨ u.type.kind = .composite := by
  rcases List.mem_cons.mp hu with rfl | hu
  · exact Or.inl rfl
  · rw [List.mem_singleton.mp hu]
    exact Or.inr rfl

/-! ## Verdicts along a trace -/

namespace DataRun

variable {vs before after : List Verdict} {v : Verdict} {o : Except RejectReason SliceRecord}

/-- A verdict was reached in the analysis that the verdicts before it left. -/
theorem Trace.exists_before (ht : Trace config arch h (before ++ v :: after) j) :
    ∃ i, Trace config arch h before i ∧
      v.candidate.resolve i arch config.maxLength = v.outcome := by
  induction before generalizing h with
  | nil =>
    cases ht with
    | reject hres _ => exact ⟨h, .nil, hres⟩
    | accept hres _ _ => exact ⟨h, .nil, hres⟩
  | cons w before ih =>
    cases ht with
    | reject hres htail =>
      obtain ⟨i, hi, hv⟩ := ih htail
      exact ⟨i, .reject hres hi, hv⟩
    | accept hres hm htail =>
      obtain ⟨i, hi, hv⟩ := ih htail
      exact ⟨i, .accept hres hm hi, hv⟩

/-- From the first slice on, the types are those at the end of the trace. -/
theorem Trace.types_eq_of_slices {ws : List Verdict} (hi : Trace config arch h vs i)
    (hj : Trace config arch h (vs ++ ws) j) (hne : slices vs ≠ []) : i.types = j.types := by
  have hall : slices (vs ++ ws) ≠ [] := by
    rw [slices_append]
    exact List.append_ne_nil_of_left_ne_nil hne _
  rw [hi.types_eq, hj.types_eq, if_neg hne, if_neg hall]

/-- A variable that the slices accepted so far do not touch, ranges being measured by the types at
the end, is looked up as before. -/
theorem Trace.get?_of_not_touched {ws : List Verdict} (hi : Trace config arch h vs i)
    (hj : Trace config arch h (vs ++ ws) j)
    (hnot : ¬ h.declared.Touched j.types ((slices vs).flatMap (SliceRecord.annotations config)) a) :
    i.declared.get? a = h.declared.get? a := by
  by_cases hs : slices vs = []
  · rw [hi.eq_of_slices hs]
  · rw [← hi.types_eq_of_slices hj hs] at hnot
    exact VariableTable.get?_of_not_touched hi.stands hnot

/-- At an address that the slices accepted so far touch, nothing is declared that could be the
length of a string. -/
theorem Trace.resolve_of_touched {ws : List Verdict} (hi : Trace config arch h vs i)
    (hj : Trace config arch h (vs ++ ws) j)
    (ht : h.declared.Touched j.types ((slices vs).flatMap (SliceRecord.annotations config))
      c.lengthAddress) :
    c.resolve i arch limit = c.resolve (h.undeclared c.lengthAddress) arch limit ∨
      c.resolve i arch limit = .error (.conflictingType c.lengthAddress .array) ∨
      c.resolve i arch limit = .error (.conflictingType c.lengthAddress .composite) := by
  have hne : slices vs ≠ [] := by
    intro hs
    obtain ⟨p, hp, -⟩ := ht
    rw [hs] at hp
    cases hp
  rw [← hi.types_eq_of_slices hj hne] at ht
  cases hv : i.declared.get? c.lengthAddress with
  | none =>
    refine Or.inl (PointerCandidate.resolve_congr hi.frame.segments_eq ?_)
    rw [hv, h.get?_undeclared]
  | some u =>
    obtain ⟨r, -, hu⟩ := List.mem_flatMap.mp (VariableTable.mem_of_touched hi.stands ht hv)
    rcases SliceRecord.kind_of_mem_annotations hu with hk | hk
    · refine Or.inr (Or.inl ?_)
      rw [PointerCandidate.resolve_of_conflict hv (by rw [hk]; decide), hk]
    · refine Or.inr (Or.inr ?_)
      rw [PointerCandidate.resolve_of_conflict hv (by rw [hk]; decide), hk]

end DataRun

/-! ## The outcomes of a result -/

namespace RunResult

/-- The result says of a candidate that it was accepted as a slice or rejected for a reason. -/
def Gives (result : RunResult) (c : PointerCandidate) : Except RejectReason SliceRecord → Prop
  | .ok r => r ∈ result.slices ∧ r.pointerAddress = c.source
  | .error reason => ⟨c.source, reason⟩ ∈ result.rejections

/-- The declarations of the slices whose pointers lie before an address. -/
def annotationsBefore (config : RecoveryConfig) (result : RunResult) (a : Address) :
    List Variable :=
  (result.slices.filter fun r => r.pointerAddress < a).flatMap (SliceRecord.annotations config)

end RunResult

namespace DataRun

variable {vs before after : List Verdict} {v w : Verdict} {o : Except RejectReason SliceRecord}

theorem mem_slices : r ∈ slices vs ↔ ∃ v ∈ vs, v.outcome = .ok r := by
  unfold slices
  rw [List.mem_filterMap]
  refine exists_congr fun v => and_congr_right fun _ => ?_
  unfold Verdict.slice?
  cases v.outcome with
  | ok s => simp
  | error reason => simp

theorem mem_rejections {x : Rejection} :
    x ∈ rejections vs ↔ ∃ v ∈ vs, v.outcome = .error x.reason ∧ v.candidate.source = x.address := by
  unfold rejections
  rw [List.mem_filterMap]
  refine exists_congr fun v => and_congr_right fun _ => ?_
  unfold Verdict.rejection?
  cases v.outcome with
  | ok s => simp
  | error reason =>
    cases x
    simp [and_comm]

/-- A slice of a verdict has the pointer of its candidate. -/
theorem Trace.pointerAddress_eq (ht : Trace config arch h vs i) (hv : v ∈ vs)
    (hr : v.outcome = .ok r) : r.pointerAddress = v.candidate.source := by
  obtain ⟨k, -, hres⟩ := ht.resolved hv hr
  exact PointerCandidate.pointerAddress_eq hres

theorem ascending_candidates (h : Analysis) (arch : Architecture) :
    ((candidates h arch).map PointerCandidate.source).Pairwise (· < ·) := by
  have hsources : (candidates h arch).map PointerCandidate.source =
      h.readOnlyPointers.map Variable.address :=
    PointerCandidate.sources_scan h arch.pointerWidth
  rw [hsources]
  exact h.ascending_readOnlyPointers

theorem eq_of_source_eq {d : PointerCandidate} (hc : c ∈ candidates h arch)
    (hd : d ∈ candidates h arch) (hs : c.source = d.source) : c = d :=
  List.inj_on_of_nodup_map ((ascending_candidates h arch).imp UInt64.ne_of_lt) hc hd hs

/-- The slices of the verdicts before a candidate are those whose pointers lie before it. -/
theorem Trace.filter_slices (ht : Trace config arch i (before ++ v :: after) j)
    (hasc : ((before ++ v :: after).map fun v => v.candidate.source).Pairwise (· < ·)) :
    ((slices (before ++ v :: after)).filter fun r => r.pointerAddress < v.candidate.source) =
      slices before := by
  rw [List.pairwise_map, List.pairwise_append, List.pairwise_cons] at hasc
  obtain ⟨-, ⟨hafter, -⟩, hbefore⟩ := hasc
  have hkept : ((slices before).filter fun r => r.pointerAddress < v.candidate.source) =
      slices before := by
    refine List.filter_eq_self.mpr fun r hr => decide_eq_true ?_
    obtain ⟨w, hw, hwr⟩ := mem_slices.mp hr
    rw [ht.pointerAddress_eq (List.mem_append_left _ hw) hwr]
    exact hbefore w hw v List.mem_cons_self
  have hdropped : ((slices (v :: after)).filter fun r => r.pointerAddress < v.candidate.source) =
      [] := by
    refine List.filter_eq_nil_iff.mpr fun r hr hlt => ?_
    obtain ⟨w, hw, hwr⟩ := mem_slices.mp hr
    have hlt := of_decide_eq_true hlt
    rw [ht.pointerAddress_eq (List.mem_append_right _ hw) hwr] at hlt
    rcases List.mem_cons.mp hw with rfl | hw
    · exact UInt64.lt_irrefl _ hlt
    · exact UInt64.lt_irrefl _ (UInt64.lt_trans hlt (hafter w hw))
  rw [slices_append, List.filter_append, hkept, hdropped, List.append_nil]

/-- A verdict was reached when the slices whose pointers lie before its candidate were declared. -/
theorem Trace.exists_reached (ht : Trace config arch h vs j)
    (hasc : (vs.map fun v => v.candidate.source).Pairwise (· < ·)) (hv : v ∈ vs) :
    ∃ before after i, vs = before ++ v :: after ∧ Trace config arch h before i ∧
      v.candidate.resolve i arch config.maxLength = v.outcome ∧
      ((slices vs).filter fun r => r.pointerAddress < v.candidate.source) = slices before := by
  obtain ⟨before, after, rfl⟩ := List.append_of_mem hv
  obtain ⟨i, hi, hres⟩ := ht.exists_before
  exact ⟨before, after, i, rfl, hi, hres, ht.filter_slices hasc⟩

/-- What a result says of a candidate is its verdict. -/
theorem Trace.gives_iff {rest : List PointerCandidate} (ht : Trace config arch i vs j)
    (hslices : result.slices = slices vs) (hrejections : result.rejections = rejections vs)
    (hcs : candidates h arch = vs.map Verdict.candidate ++ rest) (hc : c ∈ candidates h arch) :
    result.Gives c o ↔ ⟨c, o⟩ ∈ vs := by
  -- a candidate is known by its address
  have hsame : ∀ v ∈ vs, v.candidate.source = c.source → v.candidate = c := by
    intro v hv hs
    refine eq_of_source_eq ?_ hc hs
    rw [hcs]
    exact List.mem_append_left _ (List.mem_map_of_mem hv)
  cases o with
  | ok r =>
    show r ∈ result.slices ∧ r.pointerAddress = c.source ↔ _
    rw [hslices, mem_slices]
    constructor
    · rintro ⟨⟨v, hv, hvr⟩, hp⟩
      rw [ht.pointerAddress_eq hv hvr] at hp
      rw [← hsame v hv hp, ← hvr]
      exact hv
    · intro hv
      exact ⟨⟨_, hv, rfl⟩, ht.pointerAddress_eq hv rfl⟩
  | error reason =>
    show ⟨c.source, reason⟩ ∈ result.rejections ↔ _
    rw [hrejections, mem_rejections]
    constructor
    · rintro ⟨v, hv, hvr, hs⟩
      rw [← hsame v hv hs, ← hvr]
      exact hv
    · intro hv
      exact ⟨_, hv, rfl, rfl⟩

end DataRun

/-! ## The run -/

/-- The outcomes of a data run on `h`, candidate by candidate, beside what `h` itself says of each.
Ranges are measured by `types`. -/
structure RunResult.Undisturbed (h : Analysis) (arch : Architecture) (config : RecoveryConfig)
    (types : TypeTable) (result : RunResult) : Prop where
  /-- Just the candidates that were looked at have an outcome, and each has one. -/
  decided : ∀ c ∈ (DataRun.candidates h arch).take
    (result.slices.length + result.rejections.length), ∃! o, result.Gives c o
  looked : ∀ c ∈ DataRun.candidates h arch, ∀ o, result.Gives c o →
    c ∈ (DataRun.candidates h arch).take (result.slices.length + result.rejections.length)
  /-- Where no declaration for an earlier candidate touched the variable at the length field, the
  outcome is that of the analysis before the run. -/
  untouched : ∀ c ∈ DataRun.candidates h arch, ∀ o, result.Gives c o →
    ¬ h.declared.Touched types (result.annotationsBefore config c.source) c.lengthAddress →
      o = c.resolve h arch config.maxLength
  /-- Where one did, the outcome is that of the memory before the run or a conflict with what the run
  declared. -/
  touched : ∀ c ∈ DataRun.candidates h arch, ∀ o, result.Gives c o →
    h.declared.Touched types (result.annotationsBefore config c.source) c.lengthAddress →
      o = c.resolve (h.undeclared c.lengthAddress) arch config.maxLength ∨
      o = .error (.conflictingType c.lengthAddress .array) ∨
      o = .error (.conflictingType c.lengthAddress .composite)
  /-- In any case, an outcome that is no conflict is that of the memory before the run. -/
  free : ∀ c ∈ DataRun.candidates h arch, ∀ o, result.Gives c o →
    (∀ a kind, o ≠ .error (.conflictingType a kind)) →
      o = c.resolve (h.undeclared c.lengthAddress) arch config.maxLength

/-- A run that was cancelled before its batch gives no outcomes. -/
theorem RunResult.undisturbed_cancelled (h : Analysis) (arch : Architecture)
    (config : RecoveryConfig) (types : TypeTable) :
    Undisturbed h arch config types { mode := .readOnlyData, status := .cancelled } := by
  have hnone : ∀ c o, ¬ Gives { mode := .readOnlyData, status := .cancelled } c o := by
    intro c o hg
    cases o with
    | ok r => cases hg.1
    | error reason => cases hg
  exact ⟨fun _ hc => (List.not_mem_nil hc).elim, fun c _ o hg => absurd hg (hnone c o),
    fun c _ o hg => absurd hg (hnone c o), fun c _ o hg => absurd hg (hnone c o),
    fun c _ o hg => absurd hg (hnone c o)⟩

/-- The outcomes of a trace are undisturbed. -/
theorem DataRun.Trace.undisturbed {vs : List Verdict} {rest : List PointerCandidate}
    (ht : Trace config arch (h.withBatch (some [])) vs j)
    (hcs : candidates h arch = vs.map Verdict.candidate ++ rest)
    (hslices : result.slices = slices vs) (hrejections : result.rejections = rejections vs) :
    result.Undisturbed h arch config j.types := by
  have hgives : ∀ c ∈ candidates h arch, ∀ o, result.Gives c o ↔ ⟨c, o⟩ ∈ vs := fun c hc o =>
    ht.gives_iff hslices hrejections hcs hc
  have hasc : (vs.map fun v => v.candidate.source).Pairwise (· < ·) := by
    have hall := ascending_candidates h arch
    rw [hcs, List.map_append, List.map_map] at hall
    exact (List.pairwise_append.mp hall).1
  have hlooked : (candidates h arch).take (result.slices.length + result.rejections.length) =
      vs.map Verdict.candidate := by
    rw [hslices, hrejections, ht.length_eq, hcs]
    exact List.take_left' (List.length_map _)
  have hreached : ∀ c ∈ candidates h arch, ∀ o, result.Gives c o → ∃ before after i,
      vs = before ++ ⟨c, o⟩ :: after ∧ Trace config arch (h.withBatch (some [])) before i ∧
      c.resolve i arch config.maxLength = o ∧
      result.annotationsBefore config c.source =
        (slices before).flatMap (SliceRecord.annotations config) := by
    intro c hc o ho
    obtain ⟨before, after, i, hvs, hi, hres, hslices'⟩ :=
      ht.exists_reached hasc ((hgives c hc o).mp ho)
    refine ⟨before, after, i, hvs, hi, hres, ?_⟩
    rw [RunResult.annotationsBefore, hslices, hslices']
  refine ⟨?_, ?_, ?_, ?_, ?_⟩
  · intro c hc
    have hmem := List.mem_of_mem_take hc
    rw [hlooked] at hc
    obtain ⟨v, hv, rfl⟩ := List.mem_map.mp hc
    refine ⟨v.outcome, (hgives _ hmem _).mpr hv, fun o ho => ?_⟩
    have heq := List.inj_on_of_nodup_map (hasc.imp UInt64.ne_of_lt)
      ((hgives _ hmem o).mp ho) hv rfl
    exact congrArg Verdict.outcome heq
  · intro c hc o ho
    rw [hlooked]
    exact List.mem_map.mpr ⟨_, (hgives c hc o).mp ho, rfl⟩
  · intro c hc o ho hnot
    obtain ⟨before, after, i, rfl, hi, rfl, hanns⟩ := hreached c hc o ho
    rw [hanns] at hnot
    exact PointerCandidate.resolve_congr hi.frame.segments_eq (hi.get?_of_not_touched ht hnot)
  · intro c hc o ho htouched
    obtain ⟨before, after, i, rfl, hi, rfl, hanns⟩ := hreached c hc o ho
    rw [hanns] at htouched
    exact hi.resolve_of_touched ht htouched
  · intro c hc o ho hne
    obtain ⟨before, after, i, rfl, hi, rfl, -⟩ := hreached c hc o ho
    rcases PointerCandidate.resolve_cases i arch config.maxLength c with ⟨kind, hk⟩ | hfree
    · exact absurd hk (hne _ kind)
    · rw [hfree]
      refine PointerCandidate.resolve_congr hi.frame.segments_eq ?_
      rw [Analysis.get?_undeclared, Analysis.get?_undeclared]

/-- **Candidates do not disturb each other.** Whatever the analysis, the settings and the
cancellation: what a data run says of a candidate is what the analysis before the run says of it,
unless a declaration for an earlier candidate touched the variable at its length field; and what it
says is, but for a conflict, in every case what the memory before the run says. -/
theorem data_run_undisturbed (hr : (h.recover .readOnlyData config cancellation).result = .ok result) :
    ∃ arch, h.arch = some arch ∧ result.Undisturbed h arch config
      (h.recover .readOnlyData config cancellation).analysis.types := by
  have hr : (DataRun.run config cancellation h).result = .ok result := hr
  show ∃ arch, h.arch = some arch ∧ result.Undisturbed h arch config
    (DataRun.run config cancellation h).analysis.types
  obtain ⟨arch, harch, ⟨rfl, -⟩ | ⟨vs, rest, i, j, -, hcs, ht, hres, -, hj, hafter⟩⟩ :=
    DataRun.run_eq_ok hr
  · exact ⟨arch, harch, RunResult.undisturbed_cancelled h arch config _⟩
  · rw [hafter, Analysis.types_afterRun config hj]
    exact ⟨arch, harch, ht.undisturbed hcs (by rw [hres]; rfl) (by rw [hres]; rfl)⟩

/-- A binary with four pointers. The string of the first reaches into the variable at the length
field of the second, and the string of the second starts at the length field of the fourth. -/
def sharedLengthFields : Analysis where
  arch := some (.ofWordSize "x86_64" 8 .little)
  segments := [⟨{ start := 0x1000, stop := 0x1100, readable := true },
    [0x28, 0x10, 0, 0, 0, 0, 0, 0, 5, 0, 0, 0, 0, 0, 0, 0,
     0, 0, 0, 0, 0, 0, 0, 0, 0x58, 0x10, 0, 0, 0, 0, 0, 0,
     4, 0, 0, 0, 0, 0, 0, 0, 104, 101, 108, 108, 111, 0, 0, 0,
     0, 0, 0, 0, 0, 0, 0, 0, 0, 0, 0, 0, 0, 0, 0, 0,
     0x28, 0x10, 0, 0, 0, 0, 0, 0, 5, 0, 0, 0, 0, 0, 0, 0,
     0x28, 0x10, 0, 0, 0, 0, 0, 0, 114, 101, 115, 116, 0, 0, 0, 0]⟩]
  declared := .ofList [
    ⟨0x1000, .pointerTo .char 8, none, none⟩,
    ⟨0x1018, .pointerTo .char 8, none, none⟩,
    ⟨0x1020, .raw 16, none, none⟩,
    ⟨0x1040, .pointerTo .char 8, none, none⟩,
    ⟨0x1048, .raw 8, none, none⟩,
    ⟨0x1050, .pointerTo .char 8, none, none⟩]

/-- The second pointer is accepted because the first string took a conflict away, and the fourth is
rejected because the second string made one. -/
theorem undisturbed_sharedLengthFields :
    ∃ result, (sharedLengthFields.recover .readOnlyData {} none).result = .ok result ∧
      result.slices.map SliceRecord.pointerAddress = [0x1000, 0x1018] ∧
      result.rejections = [⟨0x1040, .conflictingType 0x1048 .other⟩,
        ⟨0x1050, .conflictingType 0x1058 .array⟩] ∧
      ∃ arch, sharedLengthFields.arch = some arch ∧
        PointerCandidate.resolve sharedLengthFields arch 4096 ⟨0x1018, 8, 0x1058⟩ =
          .error (.conflictingType 0x1020 .other) ∧
        PointerCandidate.resolve sharedLengthFields arch 4096 ⟨0x1050, 8, 0x1028⟩ =
          .error (.tooLong 0x74736572 4096) ∧
        result.Undisturbed sharedLengthFields arch {}
          (sharedLengthFields.recover .readOnlyData {} none).analysis.types := by
  obtain ⟨result, hr, hslices, hrejections⟩ :
      ∃ result, (sharedLengthFields.recover .readOnlyData {} none).result = .ok result ∧
        result.slices.map SliceRecord.pointerAddress = [0x1000, 0x1018] ∧
        result.rejections = [⟨0x1040, .conflictingType 0x1048 .other⟩,
          ⟨0x1050, .conflictingType 0x1058 .array⟩] :=
    ⟨_, rfl, rfl, rfl⟩
  obtain ⟨arch, harch, hall⟩ := data_run_undisturbed hr
  refine ⟨result, hr, hslices, hrejections, arch, harch, ?_, ?_, hall⟩
  · cases harch
    rfl
  · cases harch
    rfl

end SliceRecovery
