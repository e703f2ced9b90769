import SliceRecovery.Files.OnTree
import SliceRecovery.Project.Failure
import SliceRecovery.Proofs.Walking

/-!
# SliceRecovery.Proofs.OnTrees -- what tasks do to a tree of files

A task on a tree ends with a result or a failure, and with a tree in either case (`Task.on`). The laws
here take tasks apart where they are put together.

Making a directory with those above it only ever puts directories where nothing stood (`Grown`), also
when it fails on the way, and when it does not fail the directory is there (`attempted_makeDirs`).
-/

namespace SliceRecovery

theorem OnTree.bind_apply {α β : Type} (a : OnTree α) (next : α → OnTree β) (t : FileTree) :
    (a >>= next) t = next (a t).1 (a t).2 := rfl

/-- A text is read from a file with its bytes. -/
theorem OnTree.run_readText {t : FileTree} {p : Path} {bytes : List UInt8} {text : String}
    (h : t.read p = .ok bytes) (htext : Text.Utf8.read bytes = .ok text) :
    (Storage.readText p : OnTree (Except FileFault String)) t = (.ok text, t) := by
  have hread : (Storage.read p : OnTree (Except FileFault (List UInt8))) t = (.ok bytes, t) :=
    congrArg (Prod.mk · t) h
  unfold Storage.readText
  rw [OnTree.bind_apply, hread]
  dsimp only
  rw [htext]
  rfl

/-! ## Tasks -/

namespace Task

variable {α β ε : Type} {t t' : FileTree} {x : α} {f : Failure}

/-- What a task comes to on a tree, and the tree after it. -/
def on (a : Task OnTree α) (t : FileTree) : Except Failure α × FileTree := StateT.run a.run t

theorem on_lift (a : OnTree α) : (lift a).on t = (.ok (a t).1, (a t).2) := rfl

theorem on_bind_of_ok {a : Task OnTree α} (next : α → Task OnTree β) (h : a.on t = (.ok x, t')) :
    (a >>= next).on t = (next x).on t' := by
  show StateT.run (ExceptT.bindCont next (a.on t).1) (a.on t).2 = _
  rw [h]
  rfl

theorem on_bind_of_error {a : Task OnTree α} (next : α → Task OnTree β)
    (h : a.on t = (.error f, t')) : (a >>= next).on t = (.error f, t') := by
  show StateT.run (ExceptT.bindCont next (a.on t).1) (a.on t).2 = _
  rw [h]
  rfl

section Check

variable {contexts : List String} {cause : ε → Cause} {a : OnTree (Except ε α)} {e : ε}

theorem on_check_of_ok (h : a t = (.ok x, t')) : (check contexts cause a).on t = (.ok x, t') := by
  show (ofExcept contexts cause (a t).1).on (a t).2 = _
  rw [h]
  rfl

theorem on_check_of_error (h : a t = (.error e, t')) :
    (check contexts cause a).on t = (.error ⟨contexts, some (cause e)⟩, t') := by
  show (ofExcept contexts cause (a t).1).on (a t).2 = _
  rw [h]
  rfl

end Check

end Task

/-! ## Making directories -/

namespace FileTree

variable {t t' t'' : FileTree} {q : Place} {p : Path}

/-- Directories were made where nothing stood. -/
structure Grown (t t' : FileTree) : Prop where
  home : t'.home = t.home
  get? : ∀ q, t'.get? q = t.get? q ∨ t.get? q = none ∧ t'.get? q = some .directory

namespace Grown

theorem refl (t : FileTree) : t.Grown t := ⟨rfl, fun _ => Or.inl rfl⟩

theorem trans (h : t.Grown t') (h' : t'.Grown t'') : t.Grown t'' where
  home := h'.home.trans h.home
  get? q := by
    rcases h.get? q with hq | ⟨hnone, hdir⟩
    · rcases h'.get? q with hq' | ⟨hnone', hdir'⟩
      · exact Or.inl (hq'.trans hq)
      · exact Or.inr ⟨hq.symm.trans hnone', hdir'⟩
    · rcases h'.get? q with hq' | ⟨hnone', -⟩
      · exact Or.inr ⟨hnone, hq'.trans hdir⟩
      · rw [hdir] at hnone'
        cases hnone'

theorem put (h : t.get? q = none) : t.Grown (t.put q .directory) where
  home := rfl
  get? r := by
    by_cases hr : r = q
    · subst hr
      have hne : r ≠ [] := ne_nil_of_get? (by rw [h]; exact nofun)
      exact Or.inr ⟨h, get?_put_self hne⟩
    · exact Or.inl (get?_put_of_ne hr)

/-- What stands somewhere stays. -/
theorem some (h : t.Grown t') {e : Entry} (hq : t.get? q = some e) : t'.get? q = some e := by
  rcases h.get? q with h | ⟨hnone, -⟩
  · exact h.trans hq
  · rw [hq] at hnone
    cases hnone

theorem stay (h : t.Grown t') : t.DirectoriesStay t' :=
  .of_get? h.home fun _ hp => h.some hp.directory

end Grown

theorem DirectoriesStay.reaches_home (h : t.DirectoriesStay t') (hhome : t.Reaches t.home) :
    t'.Reaches t'.home := by
  rw [h.home]
  exact h.reaches hhome

theorem find?_eq_some_iff {e : Entry} : t.find? p = some (q, e) ↔ t.locate p = .ok (.found q e) := by
  unfold find?
  split
  · rename_i r e' h
    rw [h]
    simp
  · rename_i hne
    exact ⟨nofun, fun h => absurd h (hne q e)⟩

/-- A directory under a name is found where it was as long as directories stay. -/
theorem find?_directory_stay {ps : List (List Char)} {n : List Char}
    (hcut : Path.cut p.chars = ps ++ [n]) (hn : Path.IsName n) (hhome : t.Reaches t.home)
    (hstay : t.DirectoriesStay t') (h : t.find? p = Option.some (q, .directory)) :
    t'.find? p = Option.some (q, .directory) := by
  obtain ⟨hvalid, m, hleads, hspot⟩ :=
    (locate_name_eq_ok_iff hcut hn).mp (find?_eq_some_iff.mp h)
  have hstart := reaches_start hhome p
  have hq : q = m ++ [n] ∧ t.get? q = Option.some .directory := by
    unfold spotAt at hspot
    split at hspot
    · rename_i hget
      cases hspot
      exact ⟨rfl, hget⟩
    · cases hspot
  obtain ⟨rfl, hget⟩ := hq
  have hget' := (hstay.reaches ((hleads.reaches hstart).concat hn hget)).directory
  refine find?_eq_some_iff.mpr ((locate_name_eq_ok_iff hcut hn).mpr ⟨hvalid, m, ?_, ?_⟩)
  · rw [start, hstay.home]
    exact hleads.stay hstart hstay
  · rw [spotAt, hget']

/-- A directory that is there already is as good as one that is made. -/
theorem isDirectory_eq_true_iff :
    ((Storage.isDirectory p : OnTree Bool) t).1 = true ↔ ∃ q, t.find? p = some (q, .directory) := by
  show decide ((t.find? p).map (fun e => e.2.kind) = some EntryKind.directory) = true ↔ _
  rw [decide_eq_true_iff]
  constructor
  · intro h
    obtain ⟨⟨q, e⟩, hfind, hkind⟩ := Option.map_eq_some_iff.mp h
    cases e with
    | directory => exact ⟨q, hfind⟩
    | file => cases hkind
    | store => cases hkind
  · rintro ⟨q, h⟩
    rw [h]
    rfl

theorem makeDir_eq_ok (h : t.makeDir p = .ok t') :
    t.Grown t' ∧ ∃ q, t'.find? p = some (q, .directory) := by
  unfold makeDir at h
  split at h
  · cases h
  · rename_i q slash hvacant
    cases h
    obtain ⟨hvalid, hwalk⟩ := locate_eq_ok_iff.mp hvacant
    obtain ⟨hnone, hfound⟩ := walk_put_of_vacant hwalk
    exact ⟨.put hnone, q, find?_eq_some_iff.mpr (locate_eq_ok_iff.mpr ⟨hvalid, hfound⟩)⟩
  · cases h

/-- What an attempt at a directory comes to: at most directories are made, and if nothing was refused
the directory is there. -/
structure Attempted (t : FileTree) (p : Path) (r : Except FileFault Unit × FileTree) : Prop where
  grown : t.Grown r.2
  found : r.1 = .ok () → p.chars ≠ [] → ∃ q, r.2.find? p = some (q, .directory)

theorem run_orFound (t : FileTree) (p : Path) (e : FileFault) :
    (do if ← Storage.isDirectory p then return .ok () else return .error e :
        OnTree (Except FileFault Unit)) t =
      if ((Storage.isDirectory p : OnTree Bool) t).1 = true then (.ok (), t) else (.error e, t) := by
  show (if ((Storage.isDirectory p : OnTree Bool) t).1 = true then
    (return .ok () : OnTree (Except FileFault Unit)) else return .error e) t = _
  split <;> rfl

/-- A directory could not be made, which is no matter if it is there. -/
theorem attempted_orFound (t : FileTree) (p : Path) (e : FileFault) :
    t.Attempted p
      ((do if ← Storage.isDirectory p then return .ok () else return .error e :
        OnTree (Except FileFault Unit)) t) := by
  rw [run_orFound]
  split
  · rename_i h
    exact ⟨.refl t, fun _ _ => isDirectory_eq_true_iff.mp h⟩
  · exact ⟨.refl t, nofun⟩

theorem attempted_of_makeDir (h : t.makeDir p = .ok t') : t.Attempted p (.ok (), t') :=
  ⟨(makeDir_eq_ok h).1, fun _ _ => (makeDir_eq_ok h).2⟩

theorem run_makeDir_of_ok (h : t.makeDir p = .ok t') :
    (Storage.makeDir p : OnTree (Except FileFault Unit)) t = (.ok (), t') := by
  show OnTree.change (fun t => t.makeDir p) t = _
  rw [OnTree.change, h]

theorem run_makeDir_of_error {e : FileFault} (h : t.makeDir p = .error e) :
    (Storage.makeDir p : OnTree (Except FileFault Unit)) t = (.error e, t) := by
  show OnTree.change (fun t => t.makeDir p) t = _
  rw [OnTree.change, h]

theorem attempted_ensureDir (t : FileTree) (p : Path) :
    t.Attempted p ((Storage.ensureDir p : OnTree (Except FileFault Unit)) t) := by
  unfold Storage.ensureDir
  rw [OnTree.bind_apply]
  cases hmake : t.makeDir p with
  | ok t' =>
    rw [run_makeDir_of_ok hmake]
    exact attempted_of_makeDir hmake
  | error e =>
    rw [run_makeDir_of_error hmake]
    exact t.attempted_orFound p e

theorem attempted_ensureDirs (levels : Nat) (t : FileTree) (p : Path) :
    t.Attempted p ((Storage.ensureDirs levels p : OnTree (Except FileFault Unit)) t) := by
  induction levels generalizing t p with
  | zero => exact t.attempted_ensureDir p
  | succ levels ih =>
    unfold Storage.ensureDirs
    by_cases hp : p.chars = []
    · rw [if_pos hp]
      exact ⟨.refl t, fun _ hne => absurd hp hne⟩
    rw [if_neg hp, OnTree.bind_apply]
    cases hmake : t.makeDir p with
    | ok t' =>
      rw [run_makeDir_of_ok hmake]
      exact attempted_of_makeDir hmake
    | error e =>
      rw [run_makeDir_of_error hmake]
      -- only a missing directory above leads on, any other fault to a last look
      by_cases hmissing : e = .notFound
      · -- the directories above are made first
        subst hmissing
        dsimp only
        cases hparent : p.parent? with
        | none => exact ⟨.refl t, nofun⟩
        | some above =>
          dsimp only
          rw [OnTree.bind_apply]
          have habove := (ih t above).grown
          cases ((Storage.ensureDirs levels above : OnTree (Except FileFault Unit)) t).1 with
          | error e => exact ⟨habove, nofun⟩
          | ok _ =>
            obtain ⟨hgrown, hfound⟩ := attempted_ensureDir
              ((Storage.ensureDirs levels above : OnTree (Except FileFault Unit)) t).2 p
            exact ⟨habove.trans hgrown, hfound⟩
      · cases e with
        | notFound => exact absurd rfl hmissing
        | _ => exact t.attempted_orFound p _

/-- Where a directory is found there is nothing to make. -/
theorem run_makeDirs_of_found (h : t.find? p = Option.some (q, .directory)) :
    (Storage.makeDirs p : OnTree (Except FileFault Unit)) t = (.ok (), t) := by
  have hmake : t.makeDir p = .error .alreadyExists := by
    rw [makeDir, find?_eq_some_iff.mp h]
  obtain ⟨hvalid, -⟩ := locate_eq_ok_iff.mp (find?_eq_some_iff.mp h)
  unfold Storage.makeDirs Storage.ensureDirs
  rw [if_neg hvalid.nonempty, OnTree.bind_apply, run_makeDir_of_error hmake]
  refine (t.run_orFound p .alreadyExists).trans (if_pos ?_)
  exact isDirectory_eq_true_iff.mpr ⟨q, h⟩

/-- Where only the directory itself is missing, it is made. -/
theorem run_makeDirs_of_vacant {slash : Bool} (h : t.locate p = .ok (.vacant q slash)) :
    (Storage.makeDirs p : OnTree (Except FileFault Unit)) t = (.ok (), t.put q .directory) := by
  have hmake : t.makeDir p = .ok (t.put q .directory) := by rw [makeDir, h]
  obtain ⟨hvalid, -⟩ := locate_eq_ok_iff.mp h
  unfold Storage.makeDirs Storage.ensureDirs
  rw [if_neg hvalid.nonempty, OnTree.bind_apply, run_makeDir_of_ok hmake]
  rfl

/-- Making a directory only makes directories, and if it is not refused the directory is there. -/
theorem attempted_makeDirs (t : FileTree) (p : Path) :
    t.Attempted p ((Storage.makeDirs p : OnTree (Except FileFault Unit)) t) :=
  t.attempted_ensureDirs _ p

end FileTree
end SliceRecovery
