import SliceRecovery.Files.StoreFile

/-!
# SliceRecovery.Files.OnTree -- commands without a machine

The effect of commands on a tree of files, so that what they do can be stated and computed.
-/

namespace SliceRecovery

/-- Effects on a tree of files. -/
abbrev OnTree := StateM FileTree

namespace OnTree

/-- A change that may be refused. -/
def change (f : FileTree → Except FileFault FileTree) : OnTree (Except FileFault Unit) := fun t =>
  match f t with
  | .ok t => (.ok (), t)
  | .error e => (.error e, t)

instance : Storage OnTree where
  read p := fun t => (t.read p, t)
  write p bytes := change fun t => t.write p bytes
  makeDir p := change fun t => t.makeDir p
  kind? p := fun t => ((t.find? p).map fun e => e.2.kind, t)
  canonical? p := fun t => ((t.find? p).map fun e => Place.path e.1, t)
  home := fun t => (Place.path t.home, t)
  openStore p := fun t => t.openStore p
  saveStore p s := fun t => ((), t.saveStore p s)
  now := fun t => (t.clock, t)

end OnTree
end SliceRecovery
