import SliceRecovery.Files.Path
import SliceRecovery.History.Store
import SliceRecovery.Text.Hex
import SliceRecovery.Text.Utf8

/-!
# SliceRecovery.Files.StorePath -- what the path of a store names

Most paths of stores name files. The empty path and `:memory:` stand for a store that nobody else
can open, and a path that starts with `file:` is an address: a path in which octets may be escaped,
behind a host that can only be this one, and in front of options that say how to open the store.
-/

namespace SliceRecovery

/-- What the path of a store names. -/
inductive StorePath
  /-- A store that is gone as soon as it is closed. -/
  | temporary
  /-- A store in a file, which may have to be there already. -/
  | file (p : Path) (mustExist : Bool)
  deriving DecidableEq, Repr

namespace StorePath

/-! ## Addresses -/

/-- The octets of a part of an address. An escaped zero ends the part. -/
def octets : (fuel : Nat) → List Char → List UInt8
  | 0, _ => []
  | _ + 1, [] => []
  | fuel + 1, c :: cs =>
    let escaped : Option (Nat × List Char) :=
      match c, cs with
      | '%', a :: b :: rest => do
        return (16 * (← Text.Hex.digit? a) + (← Text.Hex.digit? b), rest)
      | _, _ => none
    match escaped with
    | some (0, _) => []
    | some (n, rest) => UInt8.ofNat n :: octets fuel rest
    | none => Text.Utf8.bytes (String.ofList [c]) ++ octets fuel cs

/-- The text of a part of an address. -/
def part? (cs : List Char) : Option String :=
  (Text.Utf8.read (octets (cs.length + 1) cs)).toOption

/-- A text cut at a mark, which belongs to neither side. -/
def cutAt (mark : Char) (cs : List Char) : List Char × List Char :=
  (cs.takeWhile (· ≠ mark), (cs.dropWhile (· ≠ mark)).drop 1)

/-- The options of an address, each a name with a value. -/
def options : (fuel : Nat) → List Char → List (String × String)
  | 0, _ | _, [] => []
  | fuel + 1, cs =>
    let (this, rest) := cutAt '&' cs
    let (name, value) := cutAt '=' this
    ((part? name).getD "", (part? value).getD "") :: options fuel rest

/-- The ways of access to files that an address can ask for. -/
def accesses : List String := ["unix", "unix-none", "unix-dotfile", "unix-excl"]

/-- How a store is opened. -/
structure Manner where
  temporary : Bool := false
  mustExist : Bool := false
  /-- The way of access to files. -/
  access : String := "unix"

namespace Manner

/-- Follow an option; of most only the name is looked at. -/
def follow (m : Manner) (option : String × String) : Except StoreError Manner :=
  match option.1, option.2 with
  | "mode", "memory" => .ok { m with temporary := true }
  | "mode", "ro" | "mode", "rw" => .ok { m with temporary := false, mustExist := true }
  | "mode", "rwc" => .ok { m with temporary := false, mustExist := false }
  | "mode", v => .error (.badAddress ("no such access mode: " ++ v))
  | "cache", "shared" | "cache", "private" => .ok m
  | "cache", v => .error (.badAddress ("no such cache mode: " ++ v))
  | "vfs", v => .ok { m with access := v }
  | _, _ => .ok m

/-- Follow all options. A way of access has to be known in the end, and one of them keeps nothing. -/
def ofOptions (options : List (String × String)) : Except StoreError Manner := do
  let m ← options.foldlM follow {}
  if m.access = "memdb" then return { m with temporary := true }
  else if m.access ∈ accesses then return m
  else throw (.badAddress ("no such vfs: " ++ m.access))

end Manner

/-- What a name of a file stands for when the store is opened in a manner. -/
def ofName (name : List Char) (m : Manner) : StorePath :=
  if m.temporary || name = [] || name = ":memory:".toList then temporary
  else file ⟨name⟩ m.mustExist

/-- What stands behind the host of an address; only this machine can be one. -/
def behindHost (cs : List Char) : Except StoreError (List Char) :=
  match cs with
  | '/' :: '/' :: cs =>
    let host := cs.takeWhile (· ≠ '/')
    if host = [] ∨ host = "localhost".toList then .ok (cs.drop host.length)
    else .error (.badAddress ("invalid uri authority: " ++ String.ofList host))
  | cs => .ok cs

/-- What an address names after `file:`. Everything behind a `#` is left out. -/
def ofAddress (cs : List Char) (whole : String) : Except StoreError StorePath := do
  let cs := (cutAt '#' (← behindHost cs)).1
  let (name, query) := cutAt '?' cs
  let m ← Manner.ofOptions (options (query.length + 1) query)
  match part? name with
  | some name => return ofName name.toList m
  | none => .error (.cannotOpen whole)

/-! ## Paths -/

/-- What a path names. -/
def read (p : Path) : Except StoreError StorePath :=
  let beforeZero := p.chars.takeWhile (· ≠ '\x00')
  if beforeZero.length < p.chars.length then
    .error (.zeroAt (Text.Utf8.bytes (String.ofList beforeZero)).length)
  else match p.chars with
    | 'f' :: 'i' :: 'l' :: 'e' :: ':' :: cs => ofAddress cs p.toString
    | cs => .ok (ofName cs {})

end StorePath
end SliceRecovery
