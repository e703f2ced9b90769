import Mathlib.Data.Fintype.Card
import SliceRecovery.Proofs.DataRun
import SliceRecovery.Proofs.Scanning
import SliceRecovery.Proofs.Utf8

/-!
# SliceRecovery.Proofs.Account -- a data run accounts for every candidate

Each candidate that a data run looks at ends up in one of two lists, so the two lists together are
a first part of the candidates, and all of them if the run was not cancelled. An accepted slice is
what memory and the variables say at the start: declaring slices changes the variables that later
candidates are checked against, but never the memory that they are read from.
-/

namespace SliceRecovery

variable {config : RecoveryConfig} {cancellation : Cancellation} {arch : Architecture}
  {h i j : Analysis} {limit : UInt64} {result : RunResult} {r : SliceRecord}

/-! ## Accepted slices -/

/-- A slice is what a pointer, the word after it and the bytes that it points at say. -/
structure SliceRecord.ReadFrom (h : Analysis) (arch : Architecture) (limit : UInt64)
    (r : SliceRecord) : Prop where
  pos : 0 < r.length
  below : r.length < limit
  /-- The pointer is reported with the address of the bytes, and the length follows it. -/
  pointer : ∃ v width target, h.variableAt? r.pointerAddress = some v ∧
    v.type = .pointer width target ∧ v.value = some r.dataAddress ∧
    ∃ word, Memory.read h.segments
        (r.pointerAddress + if width = 0 then arch.pointerWidth else width) arch.addressSize =
          some word ∧
      r.length.toNat = Memory.ofBytes arch.byteOrder word
  bytes_eq : Memory.read h.segments r.dataAddress r.length = some r.bytes
  text_eq : Text.Utf8.bytes r.text = r.bytes

/-- A candidate of `h` that is resolved later, in the same memory, was read from `h`. -/
theorem PointerCandidate.readFrom_of_resolve {c : PointerCandidate} {set : WorkingSet}
    (hc : c ∈ scan h set arch.pointerWidth) (hi : i.segments = h.segments)
    (hr : c.resolve i arch limit = .ok r) : r.ReadFrom h arch limit := by
  obtain ⟨-, hn, hne, hlt, hbytes, htext, hp, hd⟩ := resolve_eq_ok_iff.mp hr
  obtain ⟨v, hv, hvc⟩ := exists_of_mem_scan hc
  obtain ⟨width, target, ht, hvalue, -, hs, hw⟩ := ofVariable?_eq_some_iff.mp hvc
  obtain ⟨-, -, word, hword, hval⟩ := Memory.readInteger_eq_ok_iff.mp hn
  rw [hi] at hbytes hword
  refine ⟨UInt64.pos_iff_ne_zero.mpr hne, hlt, ⟨v, width, target, ?_, ht, ?_, word, ?_, hval⟩, ?_,
    Text.Utf8.bytes_of_read htext⟩
  · rw [hp, hs]
    exact Analysis.variableAt?_of_mem hv
  · rw [hd]
    exact hvalue
  · rw [hp, ← hw]
    exact hword
  · rw [hd]
    exact hbytes

/-! ## Verdicts -/

namespace DataRun

variable {vs : List Verdict}

/-- Every verdict is in one of the two lists. -/
theorem Trace.perm_sources (ht : Trace config arch h vs i) :
    ((slices vs).map SliceRecord.pointerAddress ++ (rejections vs).map Rejection.address).Perm
      (vs.map fun v => v.candidate.source) := by
  induction ht with
  | nil => exact .refl _
  | reject _ _ ih =>
    rw [slices_reject, rejections_reject]
    exact List.perm_middle.trans (ih.cons _)
  | accept hres _ _ ih =>
    rw [slices_accept, rejections_accept, List.map_cons, List.map_cons,
      PointerCandidate.pointerAddress_eq hres]
    exact ih.cons _

theorem Trace.length_eq (ht : Trace config arch h vs i) :
    (slices vs).length + (rejections vs).length = vs.length := by
  have hlen := ht.perm_sources.length_eq
  rwa [List.length_append, List.length_map, List.length_map, List.length_map] at hlen

/-- The accepted pointers keep the order of the candidates. -/
theorem Trace.sublist_slices (ht : Trace config arch h vs i) :
    ((slices vs).map SliceRecord.pointerAddress).Sublist (vs.map fun v => v.candidate.source) := by
  induction ht with
  | nil => exact .refl _
  | reject _ _ ih => exact ih.cons _
  | accept hres _ _ ih =>
    rw [slices_accept, List.map_cons, PointerCandidate.pointerAddress_eq hres]
    exact ih.cons_cons _

/-- The rejected pointers keep the order of the candidates. -/
theorem Trace.sublist_rejections (ht : Trace config arch h vs i) :
    ((rejections vs).map Rejection.address).Sublist (vs.map fun v => v.candidate.source) := by
  induction ht with
  | nil => exact .refl _
  | reject _ _ ih => exact ih.cons_cons _
  | accept _ _ _ ih => exact ih.cons _

/-- An accepted slice is a listed candidate that was resolved somewhere along the trace. -/
theorem Trace.exists_of_mem_slices {rest : List PointerCandidate} (ht : Trace config arch i vs j)
    (hcs : candidates h arch = vs.map Verdict.candidate ++ rest) (hr : r ∈ slices vs) :
    ∃ c ∈ candidates h arch, ∃ k, Analysis.Frame i k ∧
      c.resolve k arch config.maxLength = .ok r := by
  obtain ⟨v, hv, hvr⟩ := List.mem_filterMap.mp hr
  have hok : v.outcome = .ok r := by
    unfold Verdict.slice? at hvr
    split at hvr
    · cases hvr
      assumption
    · cases hvr
  refine ⟨v.candidate, ?_, ht.resolved hv hok⟩
  rw [hcs]
  exact List.mem_append_left _ (List.mem_map_of_mem hv)

/-- The accepted slices were read from the analysis in which the candidates were listed. -/
theorem Trace.readFrom {rest : List PointerCandidate} (ht : Trace config arch i vs j)
    (hi : i.segments = h.segments)
    (hcs : candidates h arch = vs.map Verdict.candidate ++ rest) (hr : r ∈ slices vs) :
    r.ReadFrom h arch config.maxLength := by
  obtain ⟨c, hc, k, hk, hres⟩ := ht.exists_of_mem_slices hcs hr
  exact PointerCandidate.readFrom_of_resolve hc (hk.segments_eq.trans hi) hres

end DataRun

/-! ## The account -/

/-- A list of words without repetition that misses one is shorter than there are words. -/
theorem Word.length_lt_span {l : List UInt64} {a : UInt64} (hl : l.Pairwise (· < ·))
    (ha : a ∉ l) : l.length < Word.span := by
  have hnodup : (a :: l).Nodup := List.nodup_cons.mpr ⟨ha, hl.imp UInt64.ne_of_lt⟩
  have hfin : ((a :: l).map UInt64.toFin).Nodup :=
    hnodup.map fun _ _ h => UInt64.toFin_inj.mp h
  have hcard := hfin.length_le_card
  rw [List.length_map, Fintype.card_fin] at hcard
  exact hcard

/-- An address at which nothing is declared is no read-only pointer. -/
theorem Analysis.length_readOnlyPointers_lt {a : Address} (ha : h.declared.get? a = none) :
    h.readOnlyPointers.length < Word.span := by
  rw [← List.length_map (f := Variable.address)]
  refine Word.length_lt_span h.ascending_readOnlyPointers (a := a) fun hm => ?_
  obtain ⟨v, hv, rfl⟩ := List.mem_map.mp hm
  have hsome := isSome_of_mem (mem_readOnlyPointers.mp hv).1
  rw [ha] at hsome
  cases hsome

/-- The account of a data run on `h`. -/
structure RunResult.Accounts (h : Analysis) (arch : Architecture) (limit : UInt64)
    (result : RunResult) : Prop where
  /-- The counter counts slices and rejections. -/
  count : result.candidates = UInt64.ofNat (result.slices.length + result.rejections.length)
  /-- The counter cannot have wrapped around unless all 2^64 addresses are declared. -/
  count_exact : (∃ a, h.declared.get? a = none) →
    result.candidates.toNat = result.slices.length + result.rejections.length
  /-- Slices and rejections are, each once, the first of the read-only pointers. -/
  perm : (result.slices.map SliceRecord.pointerAddress ++
      result.rejections.map Rejection.address).Perm
    ((h.readOnlyPointers.map Variable.address).take
      (result.slices.length + result.rejections.length))
  /-- A run that was not cancelled has looked at all read-only pointers. -/
  all : result.status = .completed →
    result.slices.length + result.rejections.length = h.readOnlyPointers.length
  ascending_pointers : (h.readOnlyPointers.map Variable.address).Pairwise (· < ·)
  ascending_slices : (result.slices.map SliceRecord.pointerAddress).Pairwise (· < ·)
  ascending_rejections : (result.rejections.map Rejection.address).Pairwise (· < ·)
  readFrom : ∀ r ∈ result.slices, r.ReadFrom h arch limit

/-- A run that was cancelled before its batch accounts for nothing. -/
theorem RunResult.accounts_cancelled (h : Analysis) (arch : Architecture) (limit : UInt64) :
    Accounts h arch limit { mode := .readOnlyData, status := .cancelled } where
  count := rfl
  count_exact _ := rfl
  perm := .refl _
  all hs := nomatch hs
  ascending_pointers := h.ascending_readOnlyPointers
  ascending_slices := .nil
  ascending_rejections := .nil
  readFrom _ hr := nomatch hr

/-- The result of a trace is an account of the candidates that it went through. -/
theorem DataRun.Trace.accounts {vs : List Verdict} {rest : List PointerCandidate}
    (ht : Trace config arch i vs j) (hi : i.segments = h.segments)
    (hcs : candidates h arch = vs.map Verdict.candidate ++ rest)
    (hres : result = { tally config h vs { mode := .readOnlyData } with status := result.status })
    (hend : rest = [] ∧ result.status = .completed ∨ result.status = .cancelled) :
    result.Accounts h arch config.maxLength := by
  have hslices : result.slices = slices vs := by
    rw [hres]
    rfl
  have hrejections : result.rejections = rejections vs := by
    rw [hres]
    rfl
  have hsources : h.readOnlyPointers.map Variable.address =
      (vs.map fun v => v.candidate.source) ++ rest.map PointerCandidate.source := by
    rw [← PointerCandidate.sources_scan h arch.pointerWidth]
    show (candidates h arch).map PointerCandidate.source = _
    rw [hcs, List.map_append, List.map_map]
    rfl
  have hlen : result.slices.length + result.rejections.length = vs.length := by
    rw [hslices, hrejections]
    exact ht.length_eq
  have hcount : result.candidates = UInt64.ofNat vs.length := by
    rw [hres]
    exact UInt64.zero_add _
  have hle : vs.length ≤ h.readOnlyPointers.length := by
    have := congrArg List.length hsources
    rw [List.length_append, List.length_map, List.length_map] at this
    omega
  have hasc : (vs.map fun v => v.candidate.source).Pairwise (· < ·) := by
    have hall := h.ascending_readOnlyPointers
    rw [hsources] at hall
    exact (List.pairwise_append.mp hall).1
  refine ⟨?_, ?_, ?_, ?_, h.ascending_readOnlyPointers, ?_, ?_, ?_⟩
  · rw [hlen, hcount]
  · -- fewer than 2^64 pointers, so the counter is the number
    rintro ⟨a, ha⟩
    have hlt := Analysis.length_readOnlyPointers_lt ha
    rw [hlen, hcount, UInt64.toNat_ofNat']
    exact Nat.mod_eq_of_lt (Nat.lt_of_le_of_lt hle hlt)
  · have htake : (h.readOnlyPointers.map Variable.address).take vs.length =
        vs.map fun v => v.candidate.source := by
      rw [hsources]
      exact List.take_left' (List.length_map _)
    rw [hlen, htake, hslices, hrejections]
    exact ht.perm_sources
  · intro hs
    rw [hs] at hend
    obtain ⟨rfl, -⟩ | hc := hend
    · have := congrArg List.length hsources
      rw [List.length_append, List.length_map, List.length_map] at this
      rw [hlen]
      exact this.symm
    · cases hc
  · rw [hslices]
    exact hasc.sublist ht.sublist_slices
  · rw [hrejections]
    exact hasc.sublist ht.sublist_rejections
  · rw [hslices]
    exact fun r hr => ht.readFrom hi hcs hr

/-- **Exact account of a data run.** Whatever the analysis, the settings and the cancellation: a
result of a data run accounts for every read-only pointer that the run came to. -/
theorem data_run_accounts
    (hr : (h.recover .readOnlyData config cancellation).result = .ok result) :
    ∃ arch, h.arch = some arch ∧ result.Accounts h arch config.maxLength := by
  have hr : (DataRun.run config cancellation h).result = .ok result := hr
  obtain ⟨arch, harch, ⟨rfl, -⟩ | ⟨vs, rest, i, j, -, hcs, ht, hres, hend, -, -⟩⟩ :=
    DataRun.run_eq_ok hr
  · exact ⟨arch, harch, RunResult.accounts_cancelled h arch config.maxLength⟩
  · exact ⟨arch, harch, ht.accounts rfl hcs hres hend⟩

/-- A binary with five pointers into read-only memory: one is followed by a zero, one has no width
of its own and a value that was stored with it, and one leads to a section that has no memory. -/
def mixedPointers : Analysis where
  arch := some (.ofWordSize "x86_64" 8 .little)
  segments := [
    ⟨{ start := 0x1000, stop := 0x1100, readable := true }, [104, 101, 108, 108, 111]⟩,
    ⟨{ start := 0x2000, stop := 0x2050, readable := true, writable := true },
      [0x00, 0x10, 0, 0, 0, 0, 0, 0, 5, 0, 0, 0, 0, 0, 0, 0,
       0x01, 0x10, 0, 0, 0, 0, 0, 0, 0, 0, 0, 0, 0, 0, 0, 0,
       0xFF, 0xFF, 0, 0, 0, 0, 0, 0, 2, 0, 0, 0, 0, 0, 0, 0,
       0x00, 0x30, 0, 0, 0, 0, 0, 0, 4, 0, 0, 0, 0, 0, 0, 0,
       0x02, 0x10, 0, 0, 0, 0, 0, 0, 1, 0, 0, 0, 0, 0, 0, 0]⟩]
  sections := [{ start := 0x3000, stop := 0x3010, kind := .sectionEntry, use := some .readOnlyData }]
  declared := .ofList [
    ⟨0x2000, .pointerTo .char 8, none, none⟩,
    ⟨0x2010, .pointerTo .char 8, none, none⟩,
    ⟨0x2020, .pointerTo .char 0, none, some 0x1003⟩,
    ⟨0x2030, .pointerTo .char 8, none, none⟩,
    ⟨0x2040, .pointerTo .char 8, none, none⟩]

theorem accounts_mixedPointers :
    ∃ result, (mixedPointers.recover .readOnlyData {} (some 6)).result = .ok result ∧
      result.status = .cancelled ∧ result.candidates = 4 ∧
      result.slices.map SliceRecord.pointerAddress = [0x2000, 0x2020] ∧
      result.rejections.map Rejection.address = [0x2010, 0x2030] ∧
      ∃ arch, mixedPointers.arch = some arch ∧ result.Accounts mixedPointers arch 4096 := by
  obtain ⟨result, hr, hstatus, hcount, hslices, hrejections⟩ :
      ∃ result, (mixedPointers.recover .readOnlyData {} (some 6)).result = .ok result ∧
        result.status = .cancelled ∧ result.candidates = 4 ∧
        result.slices.map SliceRecord.pointerAddress = [0x2000, 0x2020] ∧
        result.rejections.map Rejection.address = [0x2010, 0x2030] :=
    ⟨_, rfl, rfl, rfl, rfl, rfl⟩
  exact ⟨result, hr, hstatus, hcount, hslices, hrejections, data_run_accounts hr⟩

end SliceRecovery
