import SliceRecovery.Proofs.CodeRun
import SliceRecovery.Proofs.DataRun

/-!
# SliceRecovery.Proofs.Checkpoints -- where a run can be stopped

The checkpoints that the loop of a run passes when nobody cancels it are listed here: one before
every pointer candidate or, in a code run, one before every array and one before every reference
that is followed. A loop that is cancelled at one of them does the same as the other up to there. A
cancellation after its last checkpoint changes nothing (`loop_cancelAt`). A cancellation at one of
its checkpoints leaves the loop where it was when the candidates before that checkpoint were
finished (`loop_cut`): nothing of the candidate that the checkpoint belongs to has been done.
-/

namespace SliceRecovery

/-! ## Watches -/

namespace Watch

variable {w : Watch} {n : Nat}

theorem stops_of_le (hw : w.cancellation = some n) (hn : n ≤ w.passed.length) :
    w.stops = true := by
  unfold stops
  rw [hw]
  exact decide_eq_true hn

theorem not_stops (hw : ∀ n, w.cancellation = some n → w.passed.length < n) :
    w.stops = false := by
  unfold stops
  split
  · rfl
  · rename_i n hn
    exact decide_eq_false (Nat.not_le.mpr (hw n hn))

theorem not_stops_of_none (hw : w.cancellation = none) : w.stops = false := by
  apply not_stops
  intro n hn
  rw [hw] at hn
  cases hn

end Watch

namespace RunState

variable {s : RunState} {n : Nat}

/-- A run in progress that will be found cancelled at a checkpoint, counted from the first. -/
def cancelAt (s : RunState) (n : Nat) : RunState :=
  { s with watch := { s.watch with cancellation := some n } }

@[simp]
theorem analysis_cancelAt : (s.cancelAt n).analysis = s.analysis := rfl

@[simp]
theorem result_cancelAt : (s.cancelAt n).result = s.result := rfl

@[simp]
theorem count_cancelAt : (s.cancelAt n).count = s.count.cancelAt n := rfl

@[simp]
theorem pass_cancelAt {phase : Phase} {completed total : Nat} :
    (s.cancelAt n).pass phase completed total = (s.pass phase completed total).cancelAt n := rfl

theorem stops_cancelAt : (s.cancelAt s.watch.passed.length).watch.stops = true :=
  Watch.stops_of_le rfl (Nat.le_refl _)

theorem not_stops_cancelAt (hn : s.watch.passed.length < n) :
    (s.cancelAt n).watch.stops = false := by
  apply Watch.not_stops
  rintro m ⟨⟩
  exact hn

/-- At the end of a run it makes no difference whether it is found cancelled. -/
theorem close_cancelAt (config : RecoveryConfig) (total : Nat) :
    ((s.cancelAt n).close config total).result = (s.close config total).result ∧
      ((s.cancelAt n).close config total).analysis = (s.close config total).analysis := by
  unfold close
  dsimp only
  rw [pass_cancelAt, analysis_cancelAt]
  split
  · exact ⟨rfl, rfl⟩
  · exact ⟨rfl, rfl⟩

theorem progress_close (config : RecoveryConfig) (total : Nat) :
    (s.close config total).progress = s.watch.passed.reverse ++ [⟨.finishing, total, total⟩] := by
  rw [← List.reverse_cons]
  unfold close
  dsimp only
  split
  · rfl
  · rfl

end RunState

/-! ## The loop of a data run -/

namespace DataRun

variable {config : RecoveryConfig} {arch : Architecture} {c : PointerCandidate}
  {cs : List PointerCandidate} {s s' : RunState} {total done n : Nat}

/-- The checkpoints before as many candidates, `done` of `total` being finished. -/
def examinations (total done : Nat) (count : Nat) : List Progress :=
  (List.range' done count).map fun k => ⟨.resolvingSlices, k, total⟩

theorem examinations_succ (total done count : Nat) :
    examinations total done (count + 1) =
      ⟨.resolvingSlices, done, total⟩ :: examinations total (done + 1) count := by
  unfold examinations
  rw [List.range'_succ, List.map_cons]

theorem length_examinations (total done count : Nat) :
    (examinations total done count).length = count := by
  unfold examinations
  rw [List.length_map, List.length_range']

theorem loop_of_stops (hs : s.watch.stops = true) :
    loop config arch total done (c :: cs) s =
      .ok (s.pass .resolvingSlices done total).cancel := by
  rw [loop, hs, if_pos rfl]

theorem loop_of_not_stops (hs : s.watch.stops = false) :
    loop config arch total done (c :: cs) s =
      match examine config arch c (s.pass .resolvingSlices done total) with
      | .error e => .error e
      | .ok s => loop config arch total (done + 1) cs s := by
  rewrite [loop, hs, if_neg Bool.false_ne_true]
  rfl

/-- Declaring a slice does not look at the watch. -/
theorem accept_cancelAt {r : SliceRecord} (ha : accept config arch r s = .ok s') (n : Nat) :
    accept config arch r (s.cancelAt n) = .ok (s'.cancelAt n) ∧ s'.watch = s.watch := by
  unfold accept at ha ⊢
  rw [RunState.result_cancelAt]
  split at ha
  · rename_i hs
    rw [if_pos hs]
    dsimp only at ha ⊢
    rw [RunState.analysis_cancelAt]
    split at ha
    · cases ha
    · cases ha
      exact ⟨rfl, rfl⟩
  · rename_i hs
    rw [if_neg hs]
    dsimp only at ha ⊢
    rw [RunState.analysis_cancelAt]
    split at ha
    · cases ha
    · cases ha
      exact ⟨rfl, rfl⟩

/-- Looking at a candidate does not look at the watch. -/
theorem examine_cancelAt (he : examine config arch c s = .ok s') (n : Nat) :
    examine config arch c (s.cancelAt n) = .ok (s'.cancelAt n) ∧ s'.watch = s.watch := by
  unfold examine at he ⊢
  dsimp only at he ⊢
  rw [RunState.count_cancelAt, RunState.analysis_cancelAt]
  split at he
  · cases he
    exact ⟨rfl, rfl⟩
  · exact accept_cancelAt (s := s.count) he n

/-- One step of a loop that nobody cancels. -/
theorem loop_cons_eq_ok (hs : s.watch.cancellation = none)
    (hl : loop config arch total done (c :: cs) s = .ok s') :
    ∃ s1, examine config arch c (s.pass .resolvingSlices done total) = .ok s1 ∧
      s1.watch = (s.pass .resolvingSlices done total).watch ∧ s1.watch.cancellation = none ∧
      loop config arch total (done + 1) cs s1 = .ok s' := by
  rw [loop_of_not_stops (Watch.not_stops_of_none hs)] at hl
  split at hl
  · cases hl
  · rename_i s1 he
    have hw := (examine_cancelAt he 0).2
    refine ⟨s1, he, hw, ?_, hl⟩
    rw [hw]
    exact hs

/-- A loop that nobody cancels passes one checkpoint before each candidate. -/
theorem passed_loop (hl : loop config arch total done cs s = .ok s')
    (hs : s.watch.cancellation = none) :
    s'.watch.cancellation = none ∧
      s'.watch.passed = (examinations total done cs.length).reverse ++ s.watch.passed := by
  induction cs generalizing done s with
  | nil =>
    cases hl
    exact ⟨hs, rfl⟩
  | cons c cs ih =>
    obtain ⟨s1, -, hw, hs1, hl⟩ := loop_cons_eq_ok hs hl
    obtain ⟨hnone, hpassed⟩ := ih hl hs1
    refine ⟨hnone, ?_⟩
    rw [hpassed, hw, List.length_cons, examinations_succ, List.reverse_cons, List.append_assoc]
    rfl

/-- A loop that nobody cancels is a trace of all of its candidates. -/
theorem exists_trace (hl : loop config arch total done cs s = .ok s')
    (hs : s.watch.cancellation = none) (hready : Ready config s) :
    ∃ vs, vs.map Verdict.candidate = cs ∧ Trace config arch s.analysis vs s'.analysis ∧
      s'.result = tally config s.analysis vs s.result ∧ Ready config s' := by
  induction cs generalizing done s with
  | nil =>
    cases hl
    exact ⟨[], rfl, .nil, (tally_nil _).symm, hready⟩
  | cons c cs ih =>
    obtain ⟨s1, he, -, hs1, hl1⟩ := loop_cons_eq_ok hs hl
    have hpass : Ready config (s.pass .resolvingSlices done total) := hready
    obtain ⟨v, rfl, hv, hr⟩ := examine_eq_ok hpass he
    have hv : Trace config arch s.analysis [v] s1.analysis := hv
    obtain ⟨vs, rfl, ht, hrest, hend⟩ := ih hl1 hs1 (ready_examine hpass he)
    refine ⟨v :: vs, rfl, hv.append ht, ?_, hend⟩
    rw [show v :: vs = [v] ++ vs from rfl, tally_append hv, hrest, hr]
    rfl

/-- A cancellation after the last checkpoint of a loop is not seen by it. -/
theorem loop_cancelAt (hl : loop config arch total done cs s = .ok s')
    (hs : s.watch.cancellation = none) (hn : s'.watch.passed.length ≤ n) :
    loop config arch total done cs (s.cancelAt n) = .ok (s'.cancelAt n) := by
  induction cs generalizing done s with
  | nil =>
    cases hl
    rfl
  | cons c cs ih =>
    have hlt : s.watch.passed.length < n := by
      rw [(passed_loop hl hs).2, List.length_append, List.length_reverse, length_examinations,
        List.length_cons] at hn
      omega
    obtain ⟨s1, he, -, hs1, hl⟩ := loop_cons_eq_ok hs hl
    rw [loop_of_not_stops (RunState.not_stops_cancelAt hlt), RunState.pass_cancelAt,
      (examine_cancelAt he n).1]
    exact ih hl hs1

/-- A loop that is cancelled at one of its checkpoints ends where the loop that nobody cancels was
when the candidates before that checkpoint were finished. -/
theorem loop_cut (hl : loop config arch total done cs s = .ok s')
    (hs : s.watch.cancellation = none) (hlo : s.watch.passed.length ≤ n)
    (hhi : n < s'.watch.passed.length) :
    ∃ k t u, k < cs.length ∧
      (examinations total done cs.length)[n - s.watch.passed.length]? =
        some ⟨.resolvingSlices, done + k, total⟩ ∧
      loop config arch total done (cs.take k) s = .ok t ∧
      loop config arch total (done + k) (cs.drop k) t = .ok s' ∧
      loop config arch total done cs (s.cancelAt n) = .ok u ∧
      u.analysis = t.analysis ∧ u.result = { t.result with status := .cancelled } := by
  induction cs generalizing done s with
  | nil =>
    cases hl
    omega
  | cons c cs ih =>
    rw [List.length_cons, examinations_succ]
    rcases Nat.eq_or_lt_of_le hlo with rfl | hlt
    · -- at the checkpoint before this very candidate nothing has been done for it
      refine ⟨0, s, _, Nat.zero_lt_succ _, ?_, rfl, hl, loop_of_stops RunState.stops_cancelAt,
        rfl, rfl⟩
      rw [Nat.sub_self]
      rfl
    · obtain ⟨s1, he, hw, hs1, hl⟩ := loop_cons_eq_ok hs hl
      have hlen : s1.watch.passed.length = s.watch.passed.length + 1 := by
        rw [hw]
        rfl
      obtain ⟨k, t, u, hk, hp, ht, hrest, hu, ha, hr⟩ := ih hl hs1 (by omega)
      refine ⟨k + 1, t, u, Nat.succ_lt_succ hk, ?_, ?_, ?_, ?_, ha, hr⟩
      · rw [show n - s.watch.passed.length = (n - s1.watch.passed.length) + 1 by omega,
          List.getElem?_cons_succ, hp, Nat.add_assoc, Nat.add_comm 1 k]
      · rw [List.take_succ_cons, loop_of_not_stops (Watch.not_stops_of_none hs), he]
        exact ht
      · rw [List.drop_succ_cons, Nat.add_comm k 1, ← Nat.add_assoc]
        exact hrest
      · rw [loop_of_not_stops (RunState.not_stops_cancelAt hlt), RunState.pass_cancelAt,
          (examine_cancelAt he n).1]
        exact hu

end DataRun

/-! ## Following references -/

namespace Analysis.Frame

variable {h i : Analysis}

/-- Edits do not change what code says of an array. -/
theorem lengthFromReference?_eq (hi : Frame h i) (r : CodeReference) :
    i.lengthFromReference? r = h.lengthFromReference? r := by
  rw [hi.same]
  rfl

theorem referencesTo_eq (hi : Frame h i) (a : Address) : i.referencesTo a = h.referencesTo a := by
  rw [hi.same]
  rfl

end Analysis.Frame

namespace CodeRun

variable {h i : Analysis} {array : Variable} {arrays : List Variable} {r : CodeReference}
  {rs : List CodeReference} {s s' : RunState} {total done n : Nat}

/-- How many of the references to an array are followed: those up to the first that suggests a
length. -/
def followed (h : Analysis) : List CodeReference → Nat
  | [] => 0
  | r :: rs => if (h.lengthFromReference? r).isSome then 1 else followed h rs + 1

theorem followed_of_frame (hi : Analysis.Frame h i) (rs : List CodeReference) :
    followed i rs = followed h rs := by
  induction rs with
  | nil => rfl
  | cons r rs ih => rw [followed, followed, hi.lengthFromReference?_eq, ih]

theorem follow_of_stops (hs : s.watch.stops = true) :
    follow array done total (r :: rs) s =
      .stopped (s.pass .followingReferences done total).cancel := by
  rw [follow, hs, if_pos rfl]

/-- A reference that suggests nothing is passed over. -/
theorem follow_of_none (hs : s.watch.stops = false)
    (hr : s.analysis.lengthFromReference? r = none) :
    follow array done total (r :: rs) s =
      follow array done total rs (s.pass .followingReferences done total) := by
  rw [follow, hs, if_neg Bool.false_ne_true,
    show (s.pass .followingReferences done total).analysis = s.analysis from rfl, hr]

/-- The first reference that suggests a length is the last that is followed. -/
theorem follow_of_some {m : UInt64} (hs : s.watch.stops = false)
    (hr : s.analysis.lengthFromReference? r = some m)
    (hi : s.analysis.define array.address (.text m) array.name = .ok i) :
    follow array done total (r :: rs) s =
      .next { s.pass .followingReferences done total with
        analysis := i
        result := { s.result with resized := s.result.resized ++
          [⟨array.address, r.codeAddress, array.type.arrayLength?, m⟩] } } := by
  rw [follow, hs, if_neg Bool.false_ne_true,
    show (s.pass .followingReferences done total).analysis = s.analysis from rfl, hr]
  dsimp only
  rw [hi]
  rfl

theorem frame_follow (hf : follow array done total rs s = .next s') :
    Analysis.Frame s.analysis s'.analysis := by
  rcases follow_eq_next hf with ⟨-, ha, -⟩ | ⟨r, n, -, hd, -⟩
  · rw [ha]
    exact .refl _
  · exact Analysis.frame_define hd

/-- References that nobody cancels are followed to the end, with one checkpoint before each. -/
theorem exists_follow_eq_next (array : Variable) (done total : Nat) (rs : List CodeReference)
    (hs : s.watch.cancellation = none) :
    ∃ s', follow array done total rs s = .next s' ∧ s'.watch.cancellation = none ∧
      s'.watch.passed = List.replicate (followed s.analysis rs)
        ⟨.followingReferences, done, total⟩ ++ s.watch.passed := by
  induction rs generalizing s with
  | nil => exact ⟨s, rfl, hs, rfl⟩
  | cons r rs ih =>
    unfold followed
    cases hr : s.analysis.lengthFromReference? r with
    | none =>
      obtain ⟨s', hf, hnone, hp⟩ := ih (s := s.pass .followingReferences done total) hs
      refine ⟨s', ?_, hnone, ?_⟩
      · rw [follow_of_none (Watch.not_stops_of_none hs) hr]
        exact hf
      · rw [hp, if_neg (by decide), List.replicate_succ', List.append_assoc]
        rfl
    | some m =>
      obtain ⟨i, hi⟩ := Analysis.define_text s.analysis array.address m array.name
      exact ⟨_, follow_of_some (Watch.not_stops_of_none hs) hr hi, hs, rfl⟩

/-- A cancellation after the last reference that is followed is not seen among them. -/
theorem follow_cancelAt (hf : follow array done total rs s = .next s')
    (hs : s.watch.cancellation = none)
    (hn : followed s.analysis rs + s.watch.passed.length ≤ n) :
    follow array done total rs (s.cancelAt n) = .next (s'.cancelAt n) := by
  induction rs generalizing s with
  | nil =>
    cases hf
    rfl
  | cons r rs ih =>
    unfold followed at hn
    cases hr : s.analysis.lengthFromReference? r with
    | none =>
      rw [hr, if_neg (by decide)] at hn
      rw [follow_of_none (Watch.not_stops_of_none hs) hr] at hf
      rw [follow_of_none (RunState.not_stops_cancelAt (by omega)) hr]
      refine ih (s := s.pass .followingReferences done total) hf hs ?_
      show followed s.analysis rs + (s.watch.passed.length + 1) ≤ n
      omega
    | some m =>
      rw [hr, Option.isSome_some, if_pos rfl] at hn
      obtain ⟨i, hi⟩ := Analysis.define_text s.analysis array.address m array.name
      rw [follow_of_some (Watch.not_stops_of_none hs) hr hi] at hf
      cases hf
      exact follow_of_some (RunState.not_stops_cancelAt (by omega)) hr hi

/-- A cancellation at a reference that is followed stops the run there. -/
theorem follow_cut (array : Variable) (done total : Nat) (rs : List CodeReference)
    (hs : s.watch.cancellation = none) (hlo : s.watch.passed.length ≤ n)
    (hhi : n < followed s.analysis rs + s.watch.passed.length) :
    ∃ u, follow array done total rs (s.cancelAt n) = .stopped u := by
  induction rs generalizing s with
  | nil =>
    rw [followed] at hhi
    omega
  | cons r rs ih =>
    rcases Nat.eq_or_lt_of_le hlo with rfl | hlt
    · exact ⟨_, follow_of_stops RunState.stops_cancelAt⟩
    · unfold followed at hhi
      cases hr : s.analysis.lengthFromReference? r with
      | none =>
        rw [hr, if_neg (by decide)] at hhi
        rw [follow_of_none (RunState.not_stops_cancelAt hlt) hr]
        refine ih (s := s.pass .followingReferences done total) hs hlt ?_
        show n < followed s.analysis rs + (s.watch.passed.length + 1)
        omega
      | some m =>
        rw [hr, Option.isSome_some, if_pos rfl] at hhi
        omega

/-! ## The loop of a code run -/

/-- The checkpoints at the arrays that are left, `done` of `total` being finished: one before each
array and one before each reference that is followed. -/
def visits (h : Analysis) (total : Nat) : (done : Nat) → List Variable → List Progress
  | _, [] => []
  | done, array :: arrays =>
    List.replicate (followed h (h.referencesTo array.address) + 1)
      ⟨.followingReferences, done, total⟩ ++ visits h total (done + 1) arrays

theorem visits_of_frame (hi : Analysis.Frame h i) (total done : Nat) (arrays : List Variable) :
    visits i total done arrays = visits h total done arrays := by
  induction arrays generalizing done with
  | nil => rfl
  | cons array arrays ih => rw [visits, visits, hi.referencesTo_eq, followed_of_frame hi, ih]

theorem loop_of_stops (hs : s.watch.stops = true) :
    loop total done (array :: arrays) s =
      .ok (s.pass .followingReferences done total).cancel := by
  rw [loop, hs, if_pos rfl]

theorem loop_of_not_stops (hs : s.watch.stops = false) :
    loop total done (array :: arrays) s =
      match follow array done total (s.analysis.referencesTo array.address)
        (s.pass .followingReferences done total).count with
      | .next s => loop total (done + 1) arrays s
      | .stopped s => .ok s
      | .failed s e => .error (s, e) := by
  rewrite [loop, hs, if_neg Bool.false_ne_true]
  rfl

/-- One step of a loop that nobody cancels. -/
theorem loop_cons (total done : Nat) (array : Variable) (arrays : List Variable)
    (hs : s.watch.cancellation = none) :
    ∃ s1, follow array done total (s.analysis.referencesTo array.address)
        (s.pass .followingReferences done total).count = .next s1 ∧
      Analysis.Frame s.analysis s1.analysis ∧ s1.watch.cancellation = none ∧
      s1.watch.passed = List.replicate
        (followed s.analysis (s.analysis.referencesTo array.address) + 1)
        ⟨.followingReferences, done, total⟩ ++ s.watch.passed ∧
      loop total done (array :: arrays) s = loop total (done + 1) arrays s1 := by
  obtain ⟨s1, hf, hnone, hp⟩ := exists_follow_eq_next
    (s := (s.pass .followingReferences done total).count) array done total
    (s.analysis.referencesTo array.address) hs
  refine ⟨s1, hf, frame_follow (s := (s.pass .followingReferences done total).count) hf, hnone,
    ?_, ?_⟩
  · rw [hp, List.replicate_succ', List.append_assoc]
    rfl
  · rw [loop_of_not_stops (Watch.not_stops_of_none hs), hf]

/-- A loop that nobody cancels comes to its end and passes the checkpoints at its arrays. -/
theorem exists_loop_eq_ok (total done : Nat) (arrays : List Variable)
    (hs : s.watch.cancellation = none) :
    ∃ s', loop total done arrays s = .ok s' ∧ s'.watch.cancellation = none ∧
      s'.watch.passed = (visits s.analysis total done arrays).reverse ++ s.watch.passed := by
  induction arrays generalizing done s with
  | nil => exact ⟨s, rfl, hs, rfl⟩
  | cons array arrays ih =>
    obtain ⟨s1, -, hframe, hs1, hp1, hloop⟩ := loop_cons total done array arrays hs
    obtain ⟨s', hl, hnone, hp⟩ := ih (done + 1) hs1
    refine ⟨s', hloop.trans hl, hnone, ?_⟩
    rw [hp, hp1, visits_of_frame hframe, visits, List.reverse_append, List.reverse_replicate,
      List.append_assoc]

/-- A loop that nobody cancels is a trace of visits to all of its arrays. -/
theorem exists_trace (hl : loop total done arrays s = .ok s')
    (hs : s.watch.cancellation = none) :
    ∃ vs, vs.map Visit.array = arrays ∧ Trace s.analysis vs s'.analysis ∧
      s'.result = { s.result with
        candidates := s.result.candidates + UInt64.ofNat vs.length
        resized := s.result.resized ++ resizes vs } := by
  induction arrays generalizing done s with
  | nil =>
    cases hl
    exact ⟨[], rfl, .nil, by simp⟩
  | cons array arrays ih =>
    obtain ⟨s1, hf, -, hs1, -, hloop⟩ := loop_cons total done array arrays hs
    rw [hloop] at hl
    obtain ⟨vs, rfl, ht, hr⟩ := ih hl hs1
    have hcount : s.result.candidates + UInt64.ofNat (vs.length + 1) =
        s.result.candidates + 1 + UInt64.ofNat vs.length := by
      rw [UInt64.ofNat_add, UInt64.add_comm (UInt64.ofNat vs.length), UInt64.add_assoc]
      rfl
    rcases follow_eq_next hf with ⟨hnone, ha, hres⟩ | ⟨r, m, hsome, hd, hres⟩
    · rw [ha] at ht
      refine ⟨⟨array, none⟩ :: vs, rfl, .keep hnone ht, ?_⟩
      rw [hr, hres, resizes_keep, List.length_cons, hcount]
      rfl
    · refine ⟨_ :: vs, rfl, .resize hsome hd ht, ?_⟩
      rw [hr, hres, resizes_resize, List.length_cons, hcount,
        List.append_cons s.result.resized _ (resizes vs)]
      rfl

/-- A cancellation after the last checkpoint of a loop is not seen by it. -/
theorem loop_cancelAt (hl : loop total done arrays s = .ok s')
    (hs : s.watch.cancellation = none) (hn : s'.watch.passed.length ≤ n) :
    loop total done arrays (s.cancelAt n) = .ok (s'.cancelAt n) := by
  induction arrays generalizing done s with
  | nil =>
    cases hl
    rfl
  | cons array arrays ih =>
    obtain ⟨s1, hf, hframe, hs1, hp1, hloop⟩ := loop_cons total done array arrays hs
    rw [hloop] at hl
    have hle : s1.watch.passed.length ≤ n := by
      obtain ⟨_, hl', -, hp⟩ := exists_loop_eq_ok total (done + 1) arrays hs1
      rw [hl'] at hl
      cases hl
      rw [hp, List.length_append] at hn
      omega
    have hlen := congrArg List.length hp1
    rw [List.length_append, List.length_replicate] at hlen
    rw [loop_of_not_stops (RunState.not_stops_cancelAt (by omega)), RunState.pass_cancelAt,
      RunState.count_cancelAt, RunState.analysis_cancelAt, follow_cancelAt hf hs]
    · exact ih hl hs1
    · show followed s.analysis _ + (s.watch.passed.length + 1) ≤ n
      omega

/-- A loop that is cancelled at one of its checkpoints ends where the loop that nobody cancels was
when the arrays before that checkpoint were finished. An array is counted before its references are
followed. -/
theorem loop_cut (hl : loop total done arrays s = .ok s')
    (hs : s.watch.cancellation = none) (hlo : s.watch.passed.length ≤ n)
    (hhi : n < s'.watch.passed.length) :
    ∃ k t u, k < arrays.length ∧
      (visits s.analysis total done arrays)[n - s.watch.passed.length]? =
        some ⟨.followingReferences, done + k, total⟩ ∧
      loop total done (arrays.take k) s = .ok t ∧
      loop total (done + k) (arrays.drop k) t = .ok s' ∧
      loop total done arrays (s.cancelAt n) = .ok u ∧ u.analysis = t.analysis ∧
      u.result = { t.result with status := .cancelled, candidates := u.result.candidates } := by
  induction arrays generalizing done s with
  | nil =>
    cases hl
    omega
  | cons array arrays ih =>
    obtain ⟨s1, hf, hframe, hs1, hp1, hloop⟩ := loop_cons total done array arrays hs
    have hlen := congrArg List.length hp1
    rw [List.length_append, List.length_replicate] at hlen
    rw [visits]
    by_cases hin : n < s1.watch.passed.length
    · -- at a checkpoint of this very array nothing has been declared for it
      have hpos : (List.replicate (followed s.analysis (s.analysis.referencesTo array.address) + 1)
            (⟨.followingReferences, done, total⟩ : Progress) ++
          visits s.analysis total (done + 1) arrays)[n - s.watch.passed.length]? =
            some ⟨.followingReferences, done, total⟩ := by
        rw [List.getElem?_append_left (by rw [List.length_replicate]; omega),
          List.getElem?_replicate, if_pos (by omega)]
      rcases Nat.eq_or_lt_of_le hlo with rfl | hlt
      · exact ⟨0, s, _, Nat.zero_lt_succ _, hpos, rfl, hl, loop_of_stops RunState.stops_cancelAt,
          rfl, rfl⟩
      · obtain ⟨u, hu⟩ := follow_cut (s := (s.pass .followingReferences done total).count)
          array done total (s.analysis.referencesTo array.address) hs hlt (by
            show n < followed s.analysis _ + (s.watch.passed.length + 1)
            omega)
        obtain ⟨ha, hr⟩ := follow_eq_stopped hu
        refine ⟨0, s, u, Nat.zero_lt_succ _, hpos, rfl, hl, ?_, ha, ?_⟩
        · rw [loop_of_not_stops (RunState.not_stops_cancelAt hlt), RunState.pass_cancelAt,
            RunState.count_cancelAt, RunState.analysis_cancelAt, hu]
        · rw [hr]
          rfl
    · -- the array is finished before the checkpoint, which is one of those that are left
      have hge := Nat.not_lt.mp hin
      rw [hloop] at hl
      obtain ⟨k, t, u, hk, hp, ht, hrest, hu, ha, hr⟩ := ih hl hs1 hge
      refine ⟨k + 1, t, u, Nat.succ_lt_succ hk, ?_, ?_, ?_, ?_, ha, hr⟩
      · rw [visits_of_frame hframe] at hp
        rw [List.getElem?_append_right (by rw [List.length_replicate]; omega),
          List.length_replicate, Nat.sub_sub, Nat.add_comm s.watch.passed.length, ← hlen, hp,
          Nat.add_assoc, Nat.add_comm 1 k]
      · rw [List.take_succ_cons, loop_of_not_stops (Watch.not_stops_of_none hs), hf]
        exact ht
      · rw [List.drop_succ_cons, Nat.add_comm k 1, ← Nat.add_assoc]
        exact hrest
      · rw [loop_of_not_stops (RunState.not_stops_cancelAt (by omega)), RunState.pass_cancelAt,
          RunState.count_cancelAt, RunState.analysis_cancelAt, follow_cancelAt hf hs]
        · exact hu
        · show followed s.analysis _ + (s.watch.passed.length + 1) ≤ n
          omega

end CodeRun

end SliceRecovery
