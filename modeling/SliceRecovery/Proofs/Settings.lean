import SliceRecovery.Form.Project
import SliceRecovery.Proofs.Records

/-!
# SliceRecovery.Proofs.Settings -- project settings are read back

The settings of a project are written as an object of objects. Two of the members are always there
although the reader does without them: the description, which is `null` if there is none, and the
settings of runs.
-/

namespace SliceRecovery

open Json.Decode (Undoes record_obj word_undoes text_undoes bool_undoes)

namespace Json.Decode

variable {α : Type} {p : Parts} {ms : List (String × Json)} {k : String} {d : Decoder α}
  {f : α → Json} {o : Option α}

theorem option_nullable (hd : ∀ a ∈ o, d (.ofJson (f a)) = .ok a) (hnull : ∀ a ∈ o, f a ≠ .null) :
    option d (.ofJson (Json.nullable f o)) = .ok o := by
  cases o with
  | none => rfl
  | some a =>
    rw [Json.nullable, option_of_ne_null (hnull a rfl), hd a rfl]
    rfl

/-- A field that was written as `null` if it has no value. -/
theorem Parts.Collects.nullable (hp : p.Collects ms) (hk : ms.lookup k = some (Json.nullable f o))
    (hd : ∀ a ∈ o, d (.ofJson (f a)) = .ok a) (hnull : ∀ a ∈ o, f a ≠ .null) :
    p.nullable k d = .value o := by
  rw [Parts.nullable, hp.named, if_neg Bool.false_ne_true]
  exact hp.getD hk (option_nullable hd hnull) none

end Json.Decode

namespace RecoveryConfig

theorem decoder_undoes : Undoes decoder toJson := by
  intro c
  unfold decoder toJson
  refine record_obj (by decide) (.refl _) fun p hp => ?_
  rw [hp.getD rfl (word_undoes c.maxLength), hp.getD rfl (text_undoes c.sliceTypeName),
    hp.getD rfl (text_undoes c.displayLead), hp.getD rfl (bool_undoes c.requestPass)]
  rfl

theorem fits_toJson (c : RecoveryConfig) : c.toJson.Fits := by
  simp [toJson]

end RecoveryConfig

namespace ProjectConfig

theorem storeDecoder_undoes (path : String) :
    storeDecoder (.ofJson (.obj [("path", .str path)])) = .ok path := by
  refine record_obj (by decide) (.refl _) fun p hp => ?_
  rw [hp.need rfl (text_undoes path)]

theorem decoder_undoes : Undoes decoder toJson := by
  intro c
  refine record_obj (by decide) (.refl _) fun p hp => ?_
  rw [hp.need rfl (text_undoes c.name),
    hp.nullable rfl (fun s _ => text_undoes s) fun _ _ => nofun,
    hp.need rfl (text_undoes c.configVersion), hp.need rfl (storeDecoder_undoes c.storePath),
    hp.getD rfl (RecoveryConfig.decoder_undoes c.recovery)]
  rfl

theorem fits_toJson (c : ProjectConfig) : c.toJson.Fits := by
  have hdescription : (Json.nullable .str c.description).Fits := by
    cases c.description <;> trivial
  simp [toJson, hdescription, c.recovery.fits_toJson]

/-- Settings hold two levels of objects. -/
theorem depth_toJson (c : ProjectConfig) :
    (Json.Reading.ofJson c.toJson).depth ≤ Json.Reading.depthLimit := by
  obtain ⟨name, description, configVersion, storePath, recovery⟩ := c
  cases description <;>
    simp [toJson, RecoveryConfig.toJson, Json.nullable, Json.Reading.ofJson,
      Json.Reading.membersOfJson, Json.Reading.depth, Json.Reading.membersDepth,
      Json.Reading.depthLimit, Json.word]

/-- Settings are read back from the text that they are written as. -/
theorem document_indented (c : ProjectConfig) :
    Json.Decode.document decoder c.toJson.indented = .ok c := by
  rw [Json.indented, Json.Decode.document_eq .indented c.fits_toJson c.depth_toJson]
  exact decoder_undoes c

/-- The last two bytes of settings are a line break and a brace. -/
theorem two_le_length_bytes (c : ProjectConfig) :
    2 ≤ (Text.Utf8.bytes c.toJson.indented).length := by
  have hreverse : ∀ members : List Char,
      ('\x7d' :: '\n' :: members).reverse = members.reverse ++ ['\n', '\x7d'] := by simp
  obtain ⟨front, hfront⟩ : ∃ front, Json.chars .indented c.toJson = front ++ ['\n', '\x7d'] :=
    ⟨_, hreverse _⟩
  have hend : (['\n', '\x7d'].flatMap String.utf8EncodeChar).length = 2 := by decide
  rw [Json.indented, Text.Utf8.bytes, String.toList_ofList, hfront, List.flatMap_append,
    List.length_append, hend]
  exact Nat.le_add_left 2 _

end ProjectConfig
end SliceRecovery
