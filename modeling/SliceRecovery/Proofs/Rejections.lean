import SliceRecovery.Form.Recovery
import SliceRecovery.Proofs.Records

/-!
# SliceRecovery.Proofs.Rejections -- the JSON form of a rejection

A rejection is written as one object: the address of the candidate, the label of the reason and the
fields of the reason. Two reasons have an address of their own, which is written under the same name
as that of the candidate. The object then has two members `address`, and what was written is not
read back: the second of the two is a mismatch. With any other reason all names are different and
the rejection comes back as it was (`rejections_read_back`).
-/

namespace SliceRecovery

open Json.Decode

namespace Json

/- No object in a value has two members of one name. -/
mutual

def NamesApart : Json → Prop
  | arr items => ItemsNamesApart items
  | obj members => (members.map Prod.fst).Nodup ∧ MembersNamesApart members
  | _ => True

def ItemsNamesApart : List Json → Prop
  | [] => True
  | v :: vs => v.NamesApart ∧ ItemsNamesApart vs

def MembersNamesApart : List (String × Json) → Prop
  | [] => True
  | (_, v) :: ms => v.NamesApart ∧ MembersNamesApart ms

end

end Json

namespace DataKind

theorem lookup_label (k : DataKind) : names.lookup k.label = some k := by
  cases k <;> rfl

theorem decoder_undoes (stage : Json.Stage) : Undoes (decoder stage) toJson :=
  fun k => name_str k.lookup_label stage

end DataKind

namespace RejectReason

/-- A reason with an address of its own. -/
def HasAddress : RejectReason → Prop
  | zeroLength | tooLong _ _ | decodeFailure _ => False
  | readFailure _ _ | conflictingType _ _ => True

instance : DecidablePred HasAddress
  | zeroLength | tooLong _ _ | decodeFailure _ => .isFalse id
  | readFailure _ _ | conflictingType _ _ => .isTrue trivial

/-- A reason is read back from the members that it was written as. -/
theorem decoder_undoes (stage : Json.Stage) : Undoes (decoder stage) toJson := by
  intro r
  cases r with
  | zeroLength => exact tagged_obj rfl (by simp) rfl
  | tooLong n limit =>
    refine tagged_obj rfl (by simp) (record_obj (by decide) (.refl _) fun p hp => ?_)
    rw [hp.need rfl (word_undoes n), hp.need rfl (word_undoes limit)]
    rfl
  | readFailure a n =>
    refine tagged_obj rfl (by simp) (record_obj (by decide) (.refl _) fun p hp => ?_)
    rw [hp.need rfl (word_undoes a), hp.need rfl (word_undoes n)]
    rfl
  | decodeFailure n =>
    refine tagged_obj rfl (by simp) (record_obj (by decide) (.refl _) fun p hp => ?_)
    rw [hp.need rfl (word_undoes n)]
    rfl
  | conflictingType a k =>
    refine tagged_obj rfl (by simp) (record_obj (by decide) (.refl _) fun p hp => ?_)
    rw [hp.need rfl (word_undoes a), hp.need rfl (DataKind.decoder_undoes .held k)]
    rfl

end RejectReason

namespace Rejection

variable (r : Rejection) (l : Json.Layout)

theorem fits_toJson : r.toJson.Fits := by
  obtain ⟨a, reason⟩ := r
  cases reason <;> simp [toJson, RejectReason.toMembers, DataKind.toJson]

theorem depth_toJson : (Json.Reading.ofJson r.toJson).depth = 1 := by
  obtain ⟨a, reason⟩ := r
  cases reason <;> rfl

theorem namesApart_toJson_iff : r.toJson.NamesApart ↔ ¬ r.reason.HasAddress := by
  obtain ⟨a, reason⟩ := r
  cases reason <;>
    simp [toJson, RejectReason.toMembers, DataKind.toJson, Json.word, Json.NamesApart,
      Json.MembersNamesApart, RejectReason.HasAddress]

/-- The members of a reason without an address are told from the address of the candidate. -/
theorem decoder_toJson (hr : ¬ r.reason.HasAddress) : decoder (.ofJson r.toJson) = .ok r := by
  obtain ⟨a, reason⟩ := r
  have hown : (("address", Json.word a) :: reason.toMembers).filter
      (fun m => ["address"].contains m.1) = [("address", .word a)] := by
    cases reason <;> simp_all [RejectReason.toMembers, RejectReason.HasAddress]
  have hrest : (("address", Json.word a) :: reason.toMembers).filter
      (fun m => !(["address"].contains m.1)) = reason.toMembers := by
    cases reason <;> simp_all [RejectReason.toMembers, RejectReason.HasAddress]
  exact spread_obj hown hrest (by simp) (fun p hp => hp.need rfl (word_undoes a))
    (RejectReason.decoder_undoes .held reason)

/-- The second address is a mismatch. -/
theorem decoder_toJson_of_hasAddress (hr : r.reason.HasAddress) :
    decoder (.ofJson r.toJson) = .error .mismatched := by
  obtain ⟨a, reason⟩ := r
  have hagain : ∃ label b after, Rejection.toJson ⟨a, reason⟩ =
      .obj ([("address", .word a), ("reason", .str label)] ++ ("address", .word b) :: after) := by
    -- in both reasons with an address it comes right after the label
    cases reason with
    | readFailure b n => exact ⟨_, _, _, rfl⟩
    | conflictingType b k => exact ⟨_, _, _, rfl⟩
    | _ => exact hr.elim
  obtain ⟨label, b, after, heq⟩ := hagain
  have hown : ([("address", Json.word a), ("reason", .str label)] : List (String × Json)).filter
      (fun m => ["address"].contains m.1) = [("address", .word a)] := by simp
  rw [heq]
  exact spread_again hown (by simp) (fun p hp => hp.need rfl (word_undoes a)) rfl (by simp)

end Rejection

/-- **Which rejections survive their JSON form.** For every address and every reason with any field
values, in either layout: no name stands twice in what is written just when the reason has no
address of its own, and then the rejection is read back as it was. Otherwise the address of the
candidate and that of the reason stand under one name, and what was written is refused. -/
theorem rejections_read_back (r : Rejection) (l : Json.Layout) :
    (r.toJson.NamesApart ↔ ¬ r.reason.HasAddress) ∧
      document Rejection.decoder (String.ofList (r.toJson.chars l)) =
        if r.reason.HasAddress then .error .mismatched else .ok r := by
  refine ⟨r.namesApart_toJson_iff, ?_⟩
  rw [document_eq l r.fits_toJson (by rw [r.depth_toJson]; decide)]
  split
  · exact r.decoder_toJson_of_hasAddress ‹_›
  · exact r.decoder_toJson ‹_›

/-- A rejection whose bytes could not be read is written with two addresses and not read back. -/
theorem not_read_back_readFailure :
    Json.compact (Rejection.toJson ⟨0x2000, .readFailure 0x1000 5⟩) =
        "\x7b\"address\":8192,\"reason\":\"read_failure\",\"address\":4096,\"length\":5\x7d" ∧
      ¬ (Rejection.toJson ⟨0x2000, .readFailure 0x1000 5⟩).NamesApart ∧
      document Rejection.decoder (Json.compact (Rejection.toJson ⟨0x2000, .readFailure 0x1000 5⟩)) ≠
        .ok ⟨0x2000, .readFailure 0x1000 5⟩ := by
  refine ⟨rfl, fun h => ?_, fun h => ?_⟩
  · exact (Rejection.namesApart_toJson_iff _).mp h trivial
  · rw [Json.compact, document_eq .compact (Rejection.fits_toJson _) (by decide),
      Rejection.decoder_toJson_of_hasAddress ⟨0x2000, .readFailure 0x1000 5⟩ trivial] at h
    cases h

end SliceRecovery
