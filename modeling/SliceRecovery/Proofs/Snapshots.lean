import SliceRecovery.Analysis.Snapshot
import SliceRecovery.Proofs.Listing
import SliceRecovery.Proofs.Resolving

/-!
# SliceRecovery.Proofs.Snapshots -- what setting an analysis up makes of a snapshot

A snapshot is accepted just when every one of its regions holds an address, and the analysis is then
the snapshot with the kinds of its regions set by the list that they stand in and its variables put
into a table (`ofSnapshot_eq_ok_iff`). What the table comes to is said by a search of the list from
its end.
-/

namespace SliceRecovery

/-! ## Regions -/

/-- A segment of the list of segments. -/
def Segment.listed (s : Segment) : Segment := { s with region := { s.region with kind := .segment } }

/-- A section of the list of sections. -/
def Region.listed (r : Region) : Region := { r with kind := .sectionEntry }

/-- Every region of a snapshot holds an address. -/
structure Snapshot.Accepted (s : Snapshot) : Prop where
  segments : ∀ x ∈ s.segments, x.region.start < x.region.stop
  sections : ∀ r ∈ s.sections, r.start < r.stop

theorem Region.validated_eq (r : Region) :
    r.validated = if r.start < r.stop then .ok r else .error ⟨r.start, r.stop⟩ := by
  unfold validated validate
  split <;> rfl

theorem Segment.validated_eq (s : Segment) :
    s.validated =
      if s.region.start < s.region.stop then .ok s.listed
      else .error ⟨s.region.start, s.region.stop⟩ := by
  unfold validated
  rw [Region.validated_eq]
  dsimp only
  split <;> rfl

/-- A check of every item passes when each item passes. -/
theorem mapM_guarded_eq_ok_iff {α β ε : Type} {p : α → Prop} [DecidablePred p] {g : α → β}
    {e : α → ε} {xs : List α} {ys : List β} :
    xs.mapM (fun x => if p x then Except.ok (g x) else .error (e x)) = .ok ys ↔
      (∀ x ∈ xs, p x) ∧ ys = xs.map g := by
  induction xs generalizing ys with
  | nil => simp [pure, Except.pure, eq_comm]
  | cons x xs ih =>
    rw [List.mapM_cons]
    by_cases hx : p x
    · rw [if_pos hx]
      show (List.mapM _ xs >>= fun zs => Except.ok (g x :: zs)) = _ ↔ _
      cases hxs : List.mapM (fun x => if p x then Except.ok (g x) else .error (e x)) xs with
      | error f =>
        have hnot : ¬ ∀ x ∈ xs, p x := fun hall => by
          have := ih.mpr ⟨hall, rfl⟩
          rw [hxs] at this
          cases this
        refine iff_of_false (fun h => nomatch h) fun h => hnot ?_
        exact (List.forall_mem_cons.mp h.1).2
      | ok zs =>
        obtain ⟨hall, rfl⟩ := ih.mp hxs
        show Except.ok (g x :: xs.map g) = .ok ys ↔ _
        rw [Except.ok.injEq, List.forall_mem_cons, eq_comm]
        exact ⟨fun h => ⟨⟨hx, hall⟩, h⟩, fun h => h.2⟩
    · rw [if_neg hx]
      exact iff_of_false (fun h => nomatch h) fun h => hx (h.1 x List.mem_cons_self)

namespace Analysis

variable {s : Snapshot} {h : Analysis}

/-- **When a snapshot is accepted**, and what is set up from it. -/
theorem ofSnapshot_eq_ok_iff :
    ofSnapshot s = .ok h ↔
      s.Accepted ∧
        h = {
          arch := s.arch, segments := s.segments.map Segment.listed
          sections := s.sections.map Region.listed, types := s.types
          declared := .ofList s.declared, references := s.references, blocks := s.blocks } := by
  have hsegments : s.segments.mapM Segment.validated = s.segments.mapM fun x =>
      if x.region.start < x.region.stop then Except.ok x.listed
      else .error ⟨x.region.start, x.region.stop⟩ := by
    congr 1
    funext x
    exact x.validated_eq
  have hsections : (s.sections.mapM fun r => ({ r with kind := .sectionEntry } : Region).validated) =
      s.sections.mapM fun r =>
        if r.start < r.stop then Except.ok r.listed else .error ⟨r.start, r.stop⟩ := by
    congr 1
    funext r
    exact Region.validated_eq _
  unfold ofSnapshot
  rw [hsegments, hsections]
  constructor
  · intro h
    obtain ⟨xs, hxs, h⟩ := bind_eq_ok_iff.mp h
    obtain ⟨rs, hrs, h⟩ := bind_eq_ok_iff.mp h
    obtain ⟨hx, rfl⟩ := mapM_guarded_eq_ok_iff.mp hxs
    obtain ⟨hr, rfl⟩ := mapM_guarded_eq_ok_iff.mp hrs
    cases h
    exact ⟨⟨hx, hr⟩, rfl⟩
  · rintro ⟨hs, rfl⟩
    refine bind_eq_ok_iff.mpr ⟨_, mapM_guarded_eq_ok_iff.mpr ⟨hs.segments, rfl⟩, ?_⟩
    exact bind_eq_ok_iff.mpr ⟨_, mapM_guarded_eq_ok_iff.mpr ⟨hs.sections, rfl⟩, rfl⟩

end Analysis

/-! ## Tables of variables -/

namespace VariableTable

/-- What stands at an address after variables were put there one after the other: the last of them
with that address, or what stood there before. -/
theorem get?_foldl_place (vs : List Variable) (t : VariableTable) (a : Address) :
    (vs.foldl place t).get? a = (vs.reverse.find? fun v => v.address = a).or (t.get? a) := by
  induction vs generalizing t with
  | nil => rfl
  | cons v vs ih =>
    rw [List.foldl_cons, ih, get?_place, List.reverse_cons, List.find?_append, Option.or_assoc]
    congr 1
    by_cases ha : a = v.address
    · subst ha
      simp
    · simp [ha, Ne.symm ha]

theorem get?_ofList (vs : List Variable) (a : Address) :
    (ofList vs).get? a = vs.reverse.find? fun v => v.address = a := by
  unfold ofList
  rw [get?_foldl_place]
  exact Option.or_none

/-- The listing of a table that was made from a list: of the variables with one address the last,
by ascending address. -/
theorem lists_ofList (vs : List Variable) :
    Lists (fun v => (v.address.toNat : Int)) vs (ofList vs).values where
  ascending := (ofList vs).ascending_values.imp fun h =>
    Int.ofNat_lt.mpr (UInt64.lt_iff_toNat_lt.mp h)
  mem_iff := by
    intro v
    rw [mem_values_iff, get?_ofList, List.find?_eq_some_iff_append]
    constructor
    · rintro ⟨-, later, earlier, hvs, hlater⟩
      refine ⟨earlier.reverse, later.reverse, ?_, fun other ho he => ?_⟩
      · rw [← List.reverse_reverse vs, hvs]
        simp
      · have hother := hlater other (List.mem_reverse.mp ho)
        have hsame : other.address = v.address := UInt64.toNat_inj.mp (Int.ofNat.inj he)
        simp [hsame] at hother
    · rintro ⟨earlier, later, rfl, hlater⟩
      refine ⟨decide_eq_true rfl, later.reverse, earlier.reverse, by simp, fun other ho => ?_⟩
      have hother := hlater other (List.mem_reverse.mp ho)
      have hne : other.address ≠ v.address := fun he =>
        hother (congrArg (fun a : Address => (a.toNat : Int)) he)
      simp [hne]

/-- A table is made again from its listing. -/
theorem ofList_values (t : VariableTable) : ofList t.values = t := by
  have hkeys : t.values.Pairwise fun u v => (u.address.toNat : Int) ≠ v.address.toNat :=
    t.ascending_values.imp fun h he => UInt64.ne_of_lt h (UInt64.toNat_inj.mp (Int.ofNat.inj he))
  have hmem : ∀ v, v ∈ (ofList t.values).values ↔ v ∈ t.values := fun v =>
    ((lists_ofList t.values).mem_iff v).trans (isLast_iff_mem hkeys)
  apply ext_get?
  intro a
  apply Option.ext
  intro v
  constructor
  · intro hv
    cases address_of_get? hv
    exact mem_values_iff.mp ((hmem v).mp (mem_values_iff.mpr hv))
  · intro hv
    cases address_of_get? hv
    exact mem_values_iff.mp ((hmem v).mpr (mem_values_iff.mpr hv))

end VariableTable
end SliceRecovery
