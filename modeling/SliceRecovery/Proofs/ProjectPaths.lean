import Mathlib.Data.List.TakeWhile
import SliceRecovery.Project.Layout
import SliceRecovery.Proofs.StorePlaces

/-!
# SliceRecovery.Proofs.ProjectPaths -- where the files of a project are

All paths of a project are joined to its root. The path of the run history that new settings name is
the same for every root, and joined to the root it is the path that the layout names, letter by letter
(`storeFile_eq_of_new`). In a tree of files the settings and the run history stand in one directory
(`Placed`), and keep their places as long as directories stay. A project that is new gets this
directory in the one that its root leads to (`Vacant`).

The path of a run history is handed on as a text that may be an address. Joining a path to a root does
not make an address of it unless the root starts like one (`read_storeFile`).
-/

namespace SliceRecovery

namespace Path

variable {p q : Path}

/-- A path that is no longer than another one is as good, joined to the same path. -/
theorem Valid.join {r : Path} (h : (p.join q).Valid) (hq : q.isAbsolute = false)
    (hr : r.isAbsolute = false) (hne : r.chars ≠ []) (hzero : '\x00' ∉ r.chars)
    (hsize : (Text.Utf8.bytes r.toString).length ≤ (Text.Utf8.bytes q.toString).length) :
    (p.join r).Valid := by
  have hbytes : ∀ s : Path, s.isAbsolute = false →
      (Text.Utf8.bytes (p.join s).toString).length =
        (p.lead.flatMap String.utf8EncodeChar).length + (Text.Utf8.bytes s.toString).length := by
    intro s hs
    unfold Text.Utf8.bytes toString
    rw [String.toList_ofList, String.toList_ofList, chars_join hs, List.flatMap_append,
      List.length_append]
  obtain ⟨-, hfree, hshort⟩ := h
  refine ⟨?_, ?_, ?_⟩
  · rw [chars_join hr]
    exact List.append_ne_nil_of_right_ne_nil _ hne
  · rw [chars_join hq] at hfree
    rw [chars_join hr]
    simp only [List.contains_eq_mem, List.mem_append, decide_eq_false_iff_not, not_or] at hfree ⊢
    exact ⟨hfree.1, hzero⟩
  · rw [hbytes q hq] at hshort
    rw [hbytes r hr]
    omega

theorem leadPieces_join (hne : q.chars ≠ []) (hq : q.isAbsolute = false) :
    (p.join q).leadPieces = p.leadPieces ++ q.leadPieces := by
  rw [leadPieces, lead_join hne hq, cut_lead_append, List.dropLast_append_of_ne_nil (cut_ne_nil _)]
  rfl

end Path

namespace Layout

open SliceRecovery.Path (IsName nameSize)

variable (l : Layout) {t t' : FileTree} {m q : Place} {name : String}

/-! ## Texts -/

theorem tidy_storeFile : (Path.ofString ".slicer/project.db").Tidy where
  first := ⟨".slicer".toList, ["project.db".toList], by decide +kernel, by decide⟩
  last := ⟨[".slicer".toList], "project.db".toList, by decide +kernel, by decide⟩

theorem storeFile_eq : l.storeFile = l.root.join (.ofString ".slicer/project.db") :=
  Path.join_join (by decide) (by decide) (by decide)

/-- **New settings name the run history in the same way under every root.** -/
theorem storeFileFromRoot_eq : l.storeFileFromRoot = .ofString ".slicer/project.db" := by
  rw [storeFileFromRoot, storeFile_eq, Path.relativeTo?_join tidy_storeFile]
  rfl

/-- The run history that new settings name is the one that the layout names. -/
theorem join_storeFileFromRoot : l.root.join l.storeFileFromRoot = l.storeFile := by
  rw [storeFileFromRoot_eq, storeFile_eq]

theorem storeFile_eq_of_new (c : ProjectConfig) (h : c.storePath = l.storeFileFromRoot.toString) :
    c.storeFile l.root = l.storeFile := by
  have hpath : Path.ofString l.storeFileFromRoot.toString = l.storeFileFromRoot :=
    Path.eq_of_chars String.toList_ofList
  rw [ProjectConfig.storeFile, h, hpath, join_storeFileFromRoot]

/-! ## Addresses -/

theorem prefix_of_append {xs ys zs : List Char} {c : Char} (h : xs <+: ys ++ c :: zs)
    (hc : c ∉ xs) : xs <+: ys := by
  rcases List.prefix_or_prefix_of_prefix h (List.prefix_append ys (c :: zs)) with hfront | ⟨ws, rfl⟩
  · exact hfront
  · cases ws with
    | nil => simp
    | cons w ws =>
      obtain ⟨rfl, -⟩ := List.cons_prefix_cons.mp ((List.prefix_append_right_inj ys).mp h)
      exact absurd (by simp) hc

/-- Joining paths to a root does not make an address of it. -/
theorem not_address_storeFile (h : ¬ "file:".toList <+: l.root.chars) :
    ¬ "file:".toList <+: l.storeFile.chars := by
  rw [storeFile_eq, Path.chars_join (by decide)]
  intro hfront
  have hlead : "file:".toList <+: l.root.lead := prefix_of_append hfront (by decide)
  unfold Path.lead at hlead
  split at hlead
  · exact h hlead
  · exact h (prefix_of_append hlead (by decide))

theorem ofName_eq_file {name : List Char} (hne : name ≠ []) (hmemory : name ≠ ":memory:".toList) :
    StorePath.ofName name {} = .file ⟨name⟩ false := by
  unfold StorePath.ofName
  rw [decide_eq_false hne, decide_eq_false hmemory]
  rfl

/-- The run history of a project is a file, unless the root is an address. -/
theorem read_storeFile (h : ¬ "file:".toList <+: l.root.chars) (hvalid : l.storeFile.Valid) :
    StorePath.read l.storeFile = .ok (.file l.storeFile false) := by
  have hzero : l.storeFile.chars.takeWhile (· ≠ '\x00') = l.storeFile.chars := by
    refine List.takeWhile_eq_self_iff.mpr fun c hc => ?_
    refine decide_eq_true fun heq => ?_
    have hfree := hvalid.noZero
    rw [← heq, List.contains_eq_mem, decide_eq_false_iff_not] at hfree
    exact hfree hc
  have hname : l.storeFile.chars ≠ ":memory:".toList := by
    intro heq
    have hsuffix : ".slicer/project.db".toList <:+ l.storeFile.chars := by
      rw [storeFile_eq, Path.chars_join (by decide)]
      exact List.suffix_append _ _
    rw [heq] at hsuffix
    exact absurd hsuffix (by decide)
  unfold StorePath.read
  rw [hzero]
  dsimp only
  rw [if_neg (Nat.lt_irrefl _)]
  split
  · rename_i cs heq
    refine absurd ?_ (l.not_address_storeFile h)
    rw [heq]
    exact List.prefix_append "file:".toList cs
  · rw [ofName_eq_file hvalid.nonempty hname]

/-! ## Pieces -/

/-- The pieces of the directory of the settings and the run history. -/
def metaPieces : List (List Char) := l.root.leadPieces ++ [".slicer".toList]

theorem cut_metaDir : Path.cut l.metaDir.chars = l.metaPieces := by
  rw [metaDir, Path.cut_join (by decide)]
  rfl

theorem cut_inMetaDir (hname : IsName name.toList) :
    Path.cut (l.metaDir.join (.ofString name)).chars = l.metaPieces ++ [name.toList] := by
  have hrelative : (Path.ofString name).isAbsolute = false := by
    rw [Bool.eq_false_iff]
    intro habs
    obtain ⟨cs, hcs⟩ := List.head?_eq_some_iff.mp (of_decide_eq_true habs)
    have hcs : name.toList = '/' :: cs := hcs
    exact hname.noSlash (by rw [hcs]; exact List.mem_cons_self)
  rw [Path.cut_join hrelative, metaDir, Path.leadPieces_join (by decide) (by decide)]
  exact congrArg (_ ++ ·) (Path.cut_of_not_mem hname.noSlash)

theorem isName_meta : IsName ".slicer".toList := by decide +kernel

theorem isName_config : IsName "project.json".toList := by decide +kernel

theorem isName_reports : IsName "reports".toList := by decide +kernel

theorem isName_store : IsName "project.db".toList := by decide +kernel

theorem cut_configFile : Path.cut l.configFile.chars = l.metaPieces ++ ["project.json".toList] :=
  l.cut_inMetaDir isName_config

theorem cut_storeFile : Path.cut l.storeFile.chars = l.metaPieces ++ ["project.db".toList] :=
  l.cut_inMetaDir isName_store

/-! ## Places -/

theorem configFile_eq : l.configFile = l.root.join (.ofString ".slicer/project.json") :=
  Path.join_join (by decide) (by decide) (by decide)

theorem start_join {p : Path} (hp : p.isAbsolute = false) :
    t.start (l.root.join p) = t.start l.root := by
  unfold FileTree.start
  rw [Path.isAbsolute_join hp]

theorem start_metaDir : t.start l.metaDir = t.start l.root := l.start_join (by decide)

theorem start_configFile : t.start l.configFile = t.start l.root := by
  rw [configFile_eq, l.start_join (by decide)]

theorem start_storeFile : t.start l.storeFile = t.start l.root := by
  rw [storeFile_eq, l.start_join (by decide)]

theorem start_reportsDir : t.start l.reportsDir = t.start l.root := l.start_join (by decide)

theorem reportsDir_ne_nil : l.reportsDir.chars ≠ [] := by
  rw [reportsDir, Path.chars_join (by decide)]
  exact List.append_ne_nil_of_right_ne_nil _ (by decide)

theorem cut_reportsDir :
    Path.cut l.reportsDir.chars = l.root.leadPieces ++ ["reports".toList] := by
  rw [reportsDir, Path.cut_join (by decide)]
  rfl

/-- The directory of the settings and the run history is at a place in a tree. -/
structure Placed (m : Place) (t : FileTree) : Prop where
  leads : t.Leads (t.start l.root) l.metaPieces m
  valid : l.configFile.Valid

/-- The place of the settings below the directory for them. -/
def configPlace (m : Place) : Place := m ++ ["project.json".toList]

/-- The place of the run history below that directory. -/
def storePlace (m : Place) : Place := m ++ ["project.db".toList]

variable {l}

theorem locate_configFile_eq_ok_iff {spot : Spot} :
    t.locate l.configFile = .ok spot ↔ ∃ m, l.Placed m t ∧ t.spotAt (configPlace m) = spot := by
  have hsize : Path.nameSize "project.json".toList ≤ 255 := by decide +kernel
  rw [FileTree.locate_name_eq_ok_iff l.cut_configFile isName_config, start_configFile]
  constructor
  · rintro ⟨⟨hvalid, -⟩, m, hm, hspot⟩
    exact ⟨m, ⟨hm, hvalid⟩, hspot⟩
  · rintro ⟨m, ⟨hm, hvalid⟩, hspot⟩
    exact ⟨⟨hvalid, hsize⟩, m, hm, hspot⟩

/-! No other path of a project is longer than that of its settings. -/

theorem valid_metaDir (h : l.configFile.Valid) : l.metaDir.Valid := by
  rw [configFile_eq] at h
  exact h.join (by decide) (by decide) (by decide) (by decide) (by decide +kernel)

theorem valid_reportsDir (h : l.configFile.Valid) : l.reportsDir.Valid := by
  rw [configFile_eq] at h
  exact h.join (by decide) (by decide) (by decide) (by decide) (by decide +kernel)

theorem valid_storeFile (h : l.configFile.Valid) : l.storeFile.Valid := by
  rw [configFile_eq] at h
  rw [storeFile_eq]
  exact h.join (by decide) (by decide) (by decide) (by decide) (by decide +kernel)

/-- The directory for annotations stays where it is. -/
theorem find?_reportsDir_stay (hhome : t.Reaches t.home) (hstay : t.DirectoriesStay t')
    (h : t.find? l.reportsDir = some (q, .directory)) :
    t'.find? l.reportsDir = some (q, .directory) :=
  FileTree.find?_directory_stay l.cut_reportsDir isName_reports hhome hstay h

namespace Placed

theorem stay (h : l.Placed m t) (hhome : t.Reaches t.home) (hstay : t.DirectoriesStay t') :
    l.Placed m t' where
  leads := by
    rw [FileTree.start_eq hstay.home]
    exact h.leads.stay (FileTree.reaches_start hhome _) hstay
  valid := h.valid

theorem reaches (h : l.Placed m t) (hhome : t.Reaches t.home) : t.Reaches m :=
  h.leads.reaches (FileTree.reaches_start hhome _)

theorem locate_configFile (h : l.Placed m t) :
    t.locate l.configFile = .ok (t.spotAt (configPlace m)) :=
  locate_configFile_eq_ok_iff.mpr ⟨m, h, rfl⟩

theorem leads_storeFile (h : l.Placed m t) :
    t.Leads (t.start l.storeFile) l.metaPieces m := by
  rw [start_storeFile]
  exact h.leads

theorem locate_storeFile (h : l.Placed m t) :
    t.locate l.storeFile = .ok (t.spotAt (storePlace m)) := by
  have hsize : Path.nameSize "project.db".toList ≤ 255 := by decide +kernel
  exact (FileTree.locate_name_eq_ok_iff l.cut_storeFile isName_store).mpr
    ⟨⟨valid_storeFile h.valid, hsize⟩, m, h.leads_storeFile, rfl⟩

theorem locate_metaDir (h : l.Placed m t) : t.locate l.metaDir = .ok (.found m .directory) := by
  refine FileTree.locate_eq_ok_iff.mpr ⟨valid_metaDir h.valid, ?_⟩
  have hwalk := h.leads.walk_append []
  rw [List.append_nil, FileTree.walk_nil h.leads.directory_end] at hwalk
  rw [cut_metaDir, start_metaDir]
  exact hwalk

/-- The run history keeps its place as long as directories stay. -/
theorem storePlace?_stay (h : l.Placed m t) (hhome : t.Reaches t.home)
    (hstay : t.DirectoriesStay t') : t'.storePlace? l.storeFile = t.storePlace? l.storeFile :=
  FileTree.storePlace?_of_leads l.cut_storeFile h.leads_storeFile hhome hstay

theorem storePlace?_eq (h : l.Placed m t) (hq : t.storePlace? l.storeFile = some q) :
    q = storePlace m :=
  FileTree.storePlace?_eq_of_leads l.cut_storeFile h.leads_storeFile isName_store hq

end Placed

/-! ## Places for new projects -/

/-- A directory that a project can be made in: nothing of one is there, and no path is too long. -/
structure Vacant (l : Layout) (d : Place) (t : FileTree) : Prop where
  leads : t.Leads (t.start l.root) l.root.leadPieces d
  proper : ∀ n ∈ d, nameSize n ≤ 255 ∧ '\x00' ∉ n
  valid : l.configFile.Valid
  reports : t.get? (d ++ ["reports".toList]) = none
  clear : ∀ q, d ++ [".slicer".toList] <+: q → t.get? q = none
  fits : (t.storePlace? l.storeFile).isSome

/-- The tree with the directories of a project. -/
def prepared (d : Place) (t : FileTree) : FileTree :=
  (t.put (d ++ [".slicer".toList]) .directory).put (d ++ ["reports".toList]) .directory

namespace Vacant

variable {d : Place}

theorem grown_metaDir (h : l.Vacant d t) : t.Grown (t.put (d ++ [".slicer".toList]) .directory) :=
  .put (h.clear _ (List.prefix_refl _))

theorem get?_reports (h : l.Vacant d t) :
    (t.put (d ++ [".slicer".toList]) .directory).get? (d ++ ["reports".toList]) = none := by
  rw [FileTree.get?_put_of_ne, h.reports]
  intro heq
  exact absurd (List.append_cancel_left heq) (by decide)

theorem grown (h : l.Vacant d t) : t.Grown (prepared d t) :=
  h.grown_metaDir.trans (.put h.get?_reports)

theorem run_metaDir (h : l.Vacant d t) :
    (Storage.makeDirs l.metaDir : OnTree (Except FileFault Unit)) t =
      (.ok (), t.put (d ++ [".slicer".toList]) .directory) := by
  have hsize : nameSize ".slicer".toList ≤ 255 := by decide +kernel
  have hlocate : t.locate l.metaDir = .ok (.vacant (d ++ [".slicer".toList]) false) := by
    rw [FileTree.locate_name_eq_ok_iff l.cut_metaDir isName_meta, start_metaDir]
    refine ⟨⟨valid_metaDir h.valid, hsize⟩, d, h.leads, ?_⟩
    rw [FileTree.spotAt, h.clear _ (List.prefix_refl _)]
  exact FileTree.run_makeDirs_of_vacant hlocate

theorem run_reportsDir (h : l.Vacant d t) (hhome : t.Reaches t.home) :
    (Storage.makeDirs l.reportsDir : OnTree (Except FileFault Unit))
      (t.put (d ++ [".slicer".toList]) .directory) = (.ok (), prepared d t) := by
  have hsize : nameSize "reports".toList ≤ 255 := by decide +kernel
  have hlocate : (t.put (d ++ [".slicer".toList]) .directory).locate l.reportsDir =
      .ok (.vacant (d ++ ["reports".toList]) false) := by
    rw [FileTree.locate_name_eq_ok_iff l.cut_reportsDir isName_reports, start_reportsDir]
    refine ⟨⟨valid_reportsDir h.valid, hsize⟩, d, ?_, ?_⟩
    · exact h.leads.stay (FileTree.reaches_start hhome _) h.grown_metaDir.stay
    · rw [FileTree.spotAt, h.get?_reports]
  exact FileTree.run_makeDirs_of_vacant hlocate

theorem get?_metaDir (h : l.Vacant d t) :
    (prepared d t).get? (d ++ [".slicer".toList]) = some .directory := by
  refine (FileTree.Grown.put h.get?_reports).some ?_
  exact FileTree.get?_put_self (List.append_ne_nil_of_right_ne_nil _ (List.cons_ne_nil _ _))

/-- There are no settings yet. -/
theorem find?_configFile (h : l.Vacant d t) : t.find? l.configFile = none := by
  rw [Option.eq_none_iff_forall_not_mem]
  rintro ⟨q, e⟩ hfind
  obtain ⟨m, hm, -⟩ := locate_configFile_eq_ok_iff.mp (FileTree.find?_eq_some_iff.mp hfind)
  have hwhere : m = d ++ [".slicer".toList] := by
    rw [← hm.leads.foldl_onward, metaPieces, List.foldl_append, h.leads.foldl_onward,
      List.foldl_cons, FileTree.onward_name isName_meta, List.foldl_nil]
  have hdir := hm.leads.directory_end
  rw [hwhere, h.clear _ (List.prefix_refl _)] at hdir
  cases hdir

theorem proper_storePlace (h : l.Vacant d t) :
    ∀ n ∈ storePlace (d ++ [".slicer".toList]), nameSize n ≤ 255 ∧ '\x00' ∉ n := by
  unfold storePlace
  simp only [List.forall_mem_append, List.forall_mem_singleton]
  exact ⟨⟨h.proper, by decide +kernel⟩, by decide +kernel⟩

/-- The run history finds its place in the new directory. -/
theorem storePlace?_eq (h : l.Vacant d t) (hhome : t.Reaches t.home)
    (hplaced : l.Placed (d ++ [".slicer".toList]) t') (hstay : t.DirectoriesStay t') :
    t'.storePlace? l.storeFile = some (storePlace (d ++ [".slicer".toList])) := by
  obtain ⟨q, hq⟩ := Option.isSome_iff_exists.mp h.fits
  have hcut : Path.cut l.storeFile.chars =
      l.root.leadPieces ++ [".slicer".toList, "project.db".toList] := by
    rw [cut_storeFile, metaPieces, List.append_assoc]
    rfl
  have hleads : t.Leads (t.start l.storeFile) l.root.leadPieces d := by
    rw [start_storeFile]
    exact h.leads
  have hplace := FileTree.storePlace?_of_made hcut isName_meta isName_store hleads hhome hstay
    hplaced.leads.directory_end (fun n hn => (h.proper_storePlace n hn).1) hq
  rw [hplace, hplaced.storePlace?_eq hplace]

/-- The directory for the settings and the run history is empty at first. -/
theorem get?_inMetaDir (h : l.Vacant d t) (n : List Char) :
    (prepared d t).get? (d ++ [".slicer".toList] ++ [n]) = none := by
  have hlength : ∀ k : List Char, d ++ [".slicer".toList] ++ [n] ≠ d ++ [k] := by
    intro k heq
    have := congrArg List.length heq
    simp at this
  rw [prepared, FileTree.get?_put_of_ne (hlength _), FileTree.get?_put_of_ne (hlength _)]
  exact h.clear _ (List.prefix_append _ _)

theorem placed (h : l.Vacant d t) (hhome : t.Reaches t.home) :
    l.Placed (d ++ [".slicer".toList]) (prepared d t) where
  leads := (h.leads.stay (FileTree.reaches_start hhome _) h.grown.stay).concat isName_meta
    (by decide +kernel) h.get?_metaDir
  valid := h.valid

end Vacant

end Layout
end SliceRecovery
