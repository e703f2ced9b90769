import SliceRecovery.Form.Recovery
import SliceRecovery.Project.Layout

/-!
# SliceRecovery.Form.Project -- JSON form of project settings
-/

namespace SliceRecovery.ProjectConfig

open Json (Decoder)
open Json.Decode (record)

/-- The run history's place is a record of its own. -/
def storeDecoder : Decoder String := record ["path"] fun p => p.need "path" Json.Decode.text

def toJson (c : ProjectConfig) : Json :=
  .obj [("name", .str c.name), ("description", .nullable .str c.description),
    ("config_version", .str c.configVersion), ("db", .obj [("path", .str c.storePath)]),
    ("recovery", c.recovery.toJson)]

def decoder : Decoder ProjectConfig :=
  record ["name", "description", "config_version", "db", "recovery"] fun p =>
    ProjectConfig.mk <$> p.need "name" Json.Decode.text
      <*> p.nullable "description" Json.Decode.text
      <*> p.need "config_version" Json.Decode.text
      <*> p.need "db" storeDecoder
      <*> p.getD "recovery" RecoveryConfig.decoder {}

end SliceRecovery.ProjectConfig
