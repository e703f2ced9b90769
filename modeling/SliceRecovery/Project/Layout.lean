import SliceRecovery.Files.Path
import SliceRecovery.Recovery.Config

/-!
# SliceRecovery.Project.Layout -- where a project keeps its files, and its settings

A project is a directory. Below it stand a directory for the settings and the run history, and one
for exported annotations. All places follow from the root by joining texts.
-/

namespace SliceRecovery

/-- Where a project keeps its files. -/
structure Layout where
  root : Path

namespace Layout

/-- The directory of the settings and the run history. -/
def metaDir (l : Layout) : Path := l.root.join (.ofString ".slicer")

/-- The file of the settings. -/
def configFile (l : Layout) : Path := l.metaDir.join (.ofString "project.json")

/-- The file of the run history, unless the settings name another. -/
def storeFile (l : Layout) : Path := l.metaDir.join (.ofString "project.db")

/-- The directory of exported annotations. -/
def reportsDir (l : Layout) : Path := l.root.join (.ofString "reports")

/-- The file of the run history as new settings name it: relative to the root. -/
def storeFileFromRoot (l : Layout) : Path := (l.storeFile.relativeTo? l.root).getD l.storeFile

/-- The file for the annotations of a binary. -/
def annotationsFile (l : Layout) (binary : String) : Path :=
  l.reportsDir.join (.ofString (binary ++ ".annotations.json"))

/-- The name of a project after its directory. -/
def projectName (root : Path) : String :=
  (root.fileName?.map String.ofList).getD "unnamed-project"

end Layout

/-- The name of a binary for the run history: that of its file if one is given, else that of the
snapshot without its extension. -/
def binaryName (binary : Option Path) (snapshot : Path) : String :=
  let fromBinary := binary.bind Path.fileName?
  let fromSnapshot := snapshot.fileName?.map Path.stem
  ((fromBinary <|> fromSnapshot).map String.ofList).getD "unnamed-binary"

/-- The settings of a project. -/
structure ProjectConfig where
  name : String
  description : Option String := none
  configVersion : String := "0.1.0"
  /-- The file of the run history, relative to the root or absolute. -/
  storePath : String
  recovery : RecoveryConfig := {}
  deriving DecidableEq, Repr

namespace ProjectConfig

/-- The file of the run history under a root. -/
def storeFile (c : ProjectConfig) (root : Path) : Path := root.join (.ofString c.storePath)

end ProjectConfig
end SliceRecovery
