import SliceRecovery.Proofs.Account
import SliceRecovery.Proofs.Opening
import SliceRecovery.Proofs.Resizing

/-!
# SliceRecovery.Proofs.FirstReference -- a code run is a function of what was there before

The loop of a code run changes the variables as it goes, but what it decides by are the references
and the instructions, which no edit touches, and the list of arrays, which was made before the first
edit. So the new lengths can be read off the analysis before the run, array by array: each one gets
the length of the first reference to it that suggests one. That an array was removed by the growth
of an earlier one makes no difference.
-/

namespace SliceRecovery

/-! ## Byte arrays -/

namespace DataType

/-- An array of one-byte elements. -/
def IsByteArray (t : DataType) : Prop :=
  ∃ element count, t = .array element count ∧ element.width? = some 1

instance : DecidablePred IsByteArray := fun _ => decidable_of_iff _ isByteArray_iff

end DataType

namespace Analysis

variable {h i : Analysis} {a : Address} {r : CodeReference} {n : UInt64} {v : Variable}
  {e : ArrayResize}

/-- The variables that are arrays of one-byte elements in read-only memory, by ascending address. -/
def readOnlyByteArrays (h : Analysis) : List Variable :=
  h.reportedVariables.filter fun v => v.type.IsByteArray ∧ h.ReadOnlyAt v.address

theorem ascending_readOnlyByteArrays (h : Analysis) :
    h.readOnlyByteArrays.Pairwise fun u v => u.address < v.address :=
  h.ascending_reportedVariables.filter _

/-- The arrays that a code run goes through. -/
theorem candidates_eq_readOnlyByteArrays (h : Analysis) :
    CodeRun.candidates h = h.readOnlyByteArrays := by
  unfold CodeRun.candidates byteArrayCandidates readOnlyByteArrays
  congr 1
  funext v
  rw [Bool.eq_iff_iff, Bool.and_eq_true_iff, decide_eq_true_iff, contains_workingSet_iff]
  exact and_congr_left' DataType.isByteArray_iff

/-- No region reaches the largest address, so there are fewer byte arrays than addresses. -/
theorem length_readOnlyByteArrays_lt (h : Analysis) : h.readOnlyByteArrays.length < Word.span := by
  rw [← List.length_map (f := Variable.address)]
  refine Word.length_lt_span (a := Word.top) (List.pairwise_map.mpr h.ascending_readOnlyByteArrays)
    fun hm => ?_
  obtain ⟨v, hv, haddress⟩ := List.mem_map.mp hm
  obtain ⟨-, hro⟩ := of_decide_eq_true (List.mem_filter.mp hv).2
  -- the end of a region is an address itself, so what lies before it is not the largest
  have hbelow : ∀ r : Region, r.contains v.address = true → v.address < Word.top := by
    intro r hr
    have hlt := (Region.contains_iff.mp hr).2
    have hstop := r.stop.toNat_lt
    rw [UInt64.lt_iff_toNat_lt] at hlt
    rw [Word.lt_top_iff]
    unfold Word.span
    omega
  rcases hro with ⟨s, -, -, -, -, hs⟩ | ⟨r, -, -, hr⟩
  · exact absurd haddress (UInt64.ne_of_lt (hbelow _ hs))
  · exact absurd haddress (UInt64.ne_of_lt (hbelow _ hr))

/-! ## The first usable reference -/

/-- `r` is the first of the references to an address that suggests a length, and `n` is the length
that it suggests. -/
def FirstUsable (h : Analysis) (a : Address) (r : CodeReference) (n : UInt64) : Prop :=
  ∃ earlier later, h.references = earlier ++ r :: later ∧ r.dataAddress = a ∧
    h.lengthFromReference? r = some n ∧
    ∀ s ∈ earlier, s.dataAddress = a → h.lengthFromReference? s = none

/-- The suggestion for an address comes from its first usable reference. -/
theorem suggestion?_eq_some_iff : h.suggestion? a = some (r, n) ↔ h.FirstUsable a r n := by
  unfold suggestion? referencesTo FirstUsable
  constructor
  · intro hs
    -- the match splits the references to `a`, and that split comes from one of all references
    obtain ⟨before, s, after, hsplit, hs, hnone⟩ := List.findSome?_eq_some_iff.mp hs
    obtain ⟨m, hm, heq⟩ := Option.map_eq_some_iff.mp hs
    cases heq
    obtain ⟨first, second, hrefs, rfl, hsecond⟩ := List.filter_eq_append_iff.mp hsplit
    obtain ⟨skipped, later, rfl, hskipped, hr, -⟩ := List.filter_eq_cons_iff.mp hsecond
    refine ⟨first ++ skipped, later, ?_, beq_iff_eq.mp hr, hm, fun s hs ha => ?_⟩
    · rw [hrefs, List.append_assoc]
    · rcases List.mem_append.mp hs with hs | hs
      · exact Option.map_eq_none_iff.mp (hnone s (List.mem_filter.mpr ⟨hs, beq_iff_eq.mpr ha⟩))
      · exact absurd (beq_iff_eq.mpr ha) (hskipped s hs)
  · rintro ⟨earlier, later, hrefs, ha, hn, hnone⟩
    have hbefore : ((earlier.filter fun r => r.dataAddress == a).findSome? fun r =>
        (h.lengthFromReference? r).map fun n => (r, n)) = none := by
      refine List.findSome?_eq_none_iff.mpr fun s hs => ?_
      obtain ⟨hs, hsa⟩ := List.mem_filter.mp hs
      rw [hnone s hs (beq_iff_eq.mp hsa)]
      rfl
    have hkept : ((r :: later).filter fun r => r.dataAddress == a) =
        r :: later.filter fun r => r.dataAddress == a :=
      List.filter_cons_of_pos (beq_iff_eq.mpr ha)
    rw [hrefs, List.filter_append, hkept, List.findSome?_append, hbefore, List.findSome?_cons, hn]
    rfl

/-- The new length that an array gets. -/
def resize? (h : Analysis) (v : Variable) : Option ArrayResize :=
  (h.suggestion? v.address).map fun s => ⟨v.address, s.1.codeAddress, v.type.arrayLength?, s.2⟩

theorem resize?_eq_some_iff :
    h.resize? v = some e ↔ ∃ r n, h.FirstUsable v.address r n ∧
      e = ⟨v.address, r.codeAddress, v.type.arrayLength?, n⟩ := by
  unfold resize?
  rw [Option.map_eq_some_iff]
  constructor
  · rintro ⟨⟨r, n⟩, hs, rfl⟩
    exact ⟨r, n, suggestion?_eq_some_iff.mp hs, rfl⟩
  · rintro ⟨r, n, hs, rfl⟩
    exact ⟨(r, n), suggestion?_eq_some_iff.mpr hs, rfl⟩

/-- Edits change no suggestion. -/
theorem Frame.suggestion?_eq (hi : Frame h i) (a : Address) :
    i.suggestion? a = h.suggestion? a := by
  rw [hi.same]
  rfl

/-- Edits change no new length. -/
theorem Frame.resize?_eq (hi : Frame h i) : i.resize? = h.resize? := by
  funext v
  unfold Analysis.resize?
  rw [hi.suggestion?_eq]

end Analysis

/-- A trace gives the new lengths that the analysis at its start suggests. -/
theorem CodeRun.Trace.resizes_eq {h i : Analysis} {vs : List Visit} (ht : Trace h vs i) :
    resizes vs = (vs.map Visit.array).filterMap h.resize? := by
  induction ht with
  | nil => rfl
  | keep hs _ ih =>
    rw [resizes_keep, ih, List.map_cons, List.filterMap_cons_none]
    unfold Analysis.resize?
    rw [hs]
    rfl
  | resize hs hd _ ih =>
    rw [resizes_resize, ih, (Analysis.frame_define hd).resize?_eq, List.map_cons,
      List.filterMap_cons_some]
    unfold Analysis.resize?
    rw [hs]
    rfl

/-! ## The run -/

/-- The result of a code run on `h` that nobody cancels, read off `h`. -/
structure RunResult.ReadOff (h : Analysis) (result : RunResult) : Prop where
  completed : result.status = .completed
  slices : result.slices = []
  rejections : result.rejections = []
  count : result.candidates.toNat = h.readOnlyByteArrays.length
  ascending : result.resized.Pairwise fun e f => e.address < f.address
  mem_iff : ∀ e, e ∈ result.resized ↔ ∃ v ∈ h.readOnlyByteArrays, ∃ r n,
    h.FirstUsable v.address r n ∧ e = ⟨v.address, r.codeAddress, v.type.arrayLength?, n⟩

variable {arch : Architecture} {h : Analysis}

/-- The crowded arrays with one more reference to the first of them, from an instruction after which
there is no constant. -/
def idleReference : Analysis :=
  { crowdedArrays with references := ⟨0x4004, 0x1000⟩ :: crowdedArrays.references }

end SliceRecovery
