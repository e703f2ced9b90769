import SliceRecovery.Word

/-!
# SliceRecovery.Recovery.Config -- the settings of a recovery run
-/

namespace SliceRecovery

/-- The settings of a recovery run. Every one has a default, so a part of them may be given. -/
structure RecoveryConfig where
  /-- Lengths at or above this value are rejected. -/
  maxLength : UInt64 := 4096
  /-- Name of the composite type of a slice. -/
  sliceTypeName : String := "RustStringSlice"
  /-- What the display name of a slice starts with. -/
  displayLead : String := "str_"
  /-- Whether a new analysis pass is asked for at the end of a run. -/
  requestPass : Bool := true
  deriving DecidableEq, Repr

namespace RecoveryConfig

/-- The display name of a slice with a text. -/
def displayName (c : RecoveryConfig) (text : String) : String :=
  c.displayLead ++ "\"" ++ text ++ "\""

/-- The settings that apply: those of a profile if there is one, else those of the project, with a
length limit given apart put on top. -/
def effective (project : RecoveryConfig) (profile : Option RecoveryConfig)
    (maxLength : Option UInt64) : RecoveryConfig :=
  let base := profile.getD project
  { base with maxLength := maxLength.getD base.maxLength }

end RecoveryConfig
end SliceRecovery
