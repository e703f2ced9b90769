import SliceRecovery.Proofs.ProjectPaths
import SliceRecovery.Proofs.Settings
import SliceRecovery.Proofs.StoreFiles
import SliceRecovery.Proofs.Utf8

/-!
# SliceRecovery.Proofs.Initialising -- making a project, and making it again

Making a project makes directories, writes the settings and opens the run history that they name.
What a run of it comes to is said once, by `on_create_cases`: it fails before the settings are
written, and then directories were made at most; or the settings are written in a tree with more
directories, and the rest is the opening of the run history there. That opening only touches the file
of the history and what stands beside it, so the settings are read back as they were written, and a
history that was there before is kept.

One thing is not as it looks. The path of the run history is handed on as a text that may be an
address, and a root that starts with `file:` makes it one. The history of such a project stands
somewhere else than the layout says.
-/

namespace SliceRecovery

/-- What there is of a project once it is made: its settings, and a directory for annotations. -/
structure Layout.Initialised (l : Layout) (t : FileTree) : Prop where
  settings : ∃ q bytes, t.find? l.configFile = some (q, .file bytes)
  reports : ∃ q, t.find? l.reportsDir = some (q, .directory)

/-- The store in the file that the path of a run history stands for, and the place of the file. -/
def FileTree.storeAt? (t : FileTree) (p : Path) : Option (Place × Store) :=
  match StorePath.read p with
  | .ok (.file p _) => do
    let q ← t.storePlace? p
    match t.get? q with
    | some (.store s) => some (q, s)
    | _ => none
  | _ => none

namespace Project

variable {l : Layout} {c : ProjectConfig} {t t' t1 t2 : FileTree} {m q s : Place} {force : Bool}
  {p : Path}

/-! ## Settings in a tree of files -/

/-- The bytes of a file of settings. -/
def settingsBytes (c : ProjectConfig) : List UInt8 := Text.Utf8.bytes c.toJson.indented

/-- The tree with settings in the file for them. -/
def withSettings (t : FileTree) (m : Place) (c : ProjectConfig) : FileTree :=
  t.put (Layout.configPlace m) (.file (settingsBytes c))

/-- Settings stand where the layout has them. -/
structure Configured (l : Layout) (m : Place) (c : ProjectConfig) (t : FileTree) : Prop where
  home : t.Reaches t.home
  placed : l.Placed m t
  settings : t.get? (Layout.configPlace m) = some (.file (settingsBytes c))

/-- Settings can be written where the layout has them. -/
structure Writable (l : Layout) (m : Place) (t : FileTree) : Prop where
  home : t.Reaches t.home
  placed : l.Placed m t
  free : t.get? (Layout.configPlace m) ≠ some .directory

theorem get?_withSettings_of_ne (h : q ≠ Layout.configPlace m) :
    (withSettings t m c).get? q = t.get? q :=
  FileTree.get?_put_of_ne h

/-- Settings that replace others take nothing away, and let nothing stand where nothing stood. -/
theorem thins_withSettings {bytes : List UInt8}
    (h : t.get? (Layout.configPlace m) = some (.file bytes)) : t.Thins (withSettings t m c) :=
  .put h rfl

namespace Writable

variable (h : Writable l m t)

include h

theorem stay (c : ProjectConfig) : t.DirectoriesStay (withSettings t m c) :=
  .put fun hdir => absurd hdir h.free

theorem configured (c : ProjectConfig) : Configured l m c (withSettings t m c) where
  home := (h.stay c).reaches_home h.home
  placed := h.placed.stay h.home (h.stay c)
  settings := FileTree.get?_put_self
    (List.append_ne_nil_of_right_ne_nil _ (List.cons_ne_nil _ _))

end Writable

/-- Settings are written where they belong. -/
theorem write_eq_ok_iff (hhome : t.Reaches t.home) :
    t.write l.configFile (settingsBytes c) = .ok t' ↔
      ∃ m, Writable l m t ∧ withSettings t m c = t' := by
  unfold FileTree.write
  constructor
  · intro h
    cases hlocate : t.locate l.configFile with
    | error e =>
      rw [hlocate] at h
      cases h
    | ok spot =>
      obtain ⟨m, hm, hspot⟩ := Layout.locate_configFile_eq_ok_iff.mp hlocate
      rw [hlocate, ← hspot, FileTree.spotAt] at h
      cases he : t.get? (Layout.configPlace m) with
      | none =>
        rw [he] at h
        exact ⟨m, ⟨hhome, hm, by simp [he]⟩, Except.ok.inj h⟩
      | some e =>
        rw [he] at h
        cases e with
        | directory => cases h
        | file bytes => exact ⟨m, ⟨hhome, hm, by simp [he]⟩, Except.ok.inj h⟩
        | store s => exact ⟨m, ⟨hhome, hm, by simp [he]⟩, Except.ok.inj h⟩
  · rintro ⟨m, ⟨-, hm, hdir⟩, rfl⟩
    rw [hm.locate_configFile, FileTree.spotAt]
    cases he : t.get? (Layout.configPlace m) with
    | none => rfl
    | some e =>
      cases e with
      | directory => exact absurd he hdir
      | file bytes => rfl
      | store s => rfl

theorem ne_configPlace_of_beside (h : FileTree.Beside q s) : s ≠ Layout.configPlace m := by
  have hlast : ∀ ending : String, ending.toList.getLast? = some 'l' →
      FileTree.beside q ending ≠ Layout.configPlace m := by
    intro ending hending heq
    have hname := FileTree.getLast?_beside q ending
    rw [heq, Layout.configPlace, List.getLast?_concat, Option.some.injEq] at hname
    have hlast := congrArg List.getLast? hname
    rw [List.getLast?_append, hending, Option.some_or] at hlast
    exact absurd hlast (by decide)
  rcases h with rfl | rfl
  · exact hlast "-journal" (by decide)
  · exact hlast "-wal" (by decide)

namespace Configured

variable (h : Configured l m c t)

include h

theorem find?_configFile :
    t.find? l.configFile = some (Layout.configPlace m, .file (settingsBytes c)) := by
  rw [FileTree.find?_eq_some_iff, h.placed.locate_configFile, FileTree.spotAt_of_some h.settings]

/-- Settings that stand where they belong are read. -/
theorem on_readConfig : (readConfig l).on t = (.ok c, t) := by
  have hread : t.read l.configFile = .ok (settingsBytes c) := by
    rw [FileTree.read, h.placed.locate_configFile, FileTree.spotAt_of_some h.settings]
    rfl
  have htext := OnTree.run_readText hread (Text.Utf8.read_bytes c.toJson.indented)
  unfold readConfig
  rw [Task.on_bind_of_ok _ (Task.on_check_of_ok htext), c.document_indented]
  rfl

/-- A project whose settings stand where they belong is opened with its run history. -/
theorem on_openAt {r : Except Failure Store}
    (hopen : (openStore (c.storeFile l.root)).on t = (r, t')) :
    (openAt l).on t = (r.map fun s => ⟨l, c, c.storeFile l.root, s⟩, t') := by
  unfold openAt
  rw [Task.on_bind_of_ok _ h.on_readConfig]
  cases r with
  | error f =>
    rw [Task.on_bind_of_error _ hopen]
    rfl
  | ok s =>
    rw [Task.on_bind_of_ok _ hopen]
    rfl

/-- Opening a run history does not touch settings, which are no history. -/
theorem after_openStore {r : Except Failure Store} (hopen : (openStore p).on t = (r, t')) :
    Configured l m c t' ∧ t.DirectoriesStay t' := by
  rcases openStore_touches h.home.names hopen with rfl | ⟨q, htouched, hsmall⟩
  · exact ⟨h, .refl t'⟩
  · have hsettings : t'.get? (Layout.configPlace m) = t.get? (Layout.configPlace m) := by
      refine htouched.get?_eq ?_ ?_ fun s => ne_configPlace_of_beside
      · rw [Layout.configPlace, List.dropLast_concat]
        exact h.placed.reaches h.home
      · -- what is opened as a history has one byte at most, and settings have more
        rintro rfl
        exact absurd (hsmall _ h.settings) (Nat.not_le.mpr c.two_le_length_bytes)
    have hstay := htouched.stay
    exact ⟨⟨hstay.reaches_home h.home, h.placed.stay h.home hstay, hsettings.trans h.settings⟩, hstay⟩

end Configured

/-! ## Histories that stand somewhere -/

theorem storeAt?_eq_some_iff {st : Store} :
    t.storeAt? p = some (q, st) ↔
      ∃ p' must, StorePath.read p = .ok (.file p' must) ∧ t.storePlace? p' = some q ∧
        t.get? q = some (.store st) := by
  unfold FileTree.storeAt?
  constructor
  · intro h
    split at h
    · rename_i p' must hread
      obtain ⟨q', hplace, h⟩ := Option.bind_eq_some_iff.mp h
      split at h
      · rename_i hget
        cases h
        exact ⟨p', must, hread, hplace, hget⟩
      · cases h
    · cases h
  · rintro ⟨p', must, hread, hplace, hget⟩
    rw [hread]
    dsimp only
    rw [hplace, Option.bind_eq_bind, Option.bind_some, hget]

/-- The store in a file is kept when it is opened, and one that was opened is opened again. -/
theorem kept_of_openStore {r : Except Failure Store} {st : Store} (hhome : t.Reaches t.home)
    (hst : t.storeAt? p = some (q, st)) (hopen : (openStore p).on t = (r, t')) :
    ∃ st', t'.get? q = some (.store st') ∧ st.Keeps st' ∧
      ∀ s, r = .ok s → (openStore p).on t' = (.ok st', t') := by
  obtain ⟨p', must, hread, hplace, hstore⟩ := storeAt?_eq_some_iff.mp hst
  have honly : ∀ p2 must2 q2, StorePath.read p = .ok (.file p2 must2) →
      t.storePlace? p2 = some q2 → q2 = q := by
    intro p2 must2 q2 hread2 hplace2
    rw [hread] at hread2
    cases hread2
    exact FileTree.storePlace?_unique rfl hplace hplace2
  obtain ⟨st', hend, hkeeps⟩ := openStore_keeps hhome.names hstore honly hopen
  refine ⟨st', hend, hkeeps, ?_⟩
  rintro s rfl
  -- a history that stands there keeps its place because entries only go
  have hkind : (t.get? q).map Entry.kind = some .file := by
    rw [hstore]
    rfl
  obtain ⟨-, hget, hagain⟩ := openStore_again hhome.names hread hplace
    (fun t2 htouched =>
      FileTree.storePlace?_of_thins (htouched.thins hkind).1 hhome.names hplace) hopen
  rw [hend] at hget
  cases hget
  exact hagain

/-- Settings that replace others are no history, so that histories stay where they are. -/
theorem ne_configPlace_of_storeAt? {bytes : List UInt8} {st : Store}
    (hget : t.get? (Layout.configPlace m) = some (.file bytes))
    (hst : t.storeAt? p = some (q, st)) : q ≠ Layout.configPlace m := by
  rintro rfl
  obtain ⟨-, -, -, -, hstore⟩ := storeAt?_eq_some_iff.mp hst
  rw [hget] at hstore
  cases hstore

theorem storeAt?_withSettings {bytes : List UInt8} {st : Store} (hhome : t.Reaches t.home)
    (hget : t.get? (Layout.configPlace m) = some (.file bytes))
    (hst : t.storeAt? p = some (q, st)) : (withSettings t m c).storeAt? p = some (q, st) := by
  have hne := ne_configPlace_of_storeAt? hget hst
  obtain ⟨p', must, hread, hplace, hstore⟩ := storeAt?_eq_some_iff.mp hst
  exact storeAt?_eq_some_iff.mpr
    ⟨p', must, hread, FileTree.storePlace?_of_thins (thins_withSettings hget) hhome.names hplace,
      (get?_withSettings_of_ne hne).trans hstore⟩

/-- Settings that replace others are not beside a history, so that they are not in its way. -/
theorem on_openStore_withSettings {bytes : List UInt8} {st s2 : Store} (hwritable : Writable l m t)
    (hget : t.get? (Layout.configPlace m) = some (.file bytes))
    (hst : t.storeAt? p = some (q, st)) (hopen : (openStore p).on t = (.ok s2, t2)) :
    ∃ u, (openStore p).on (withSettings t m c) = (.ok s2, u) := by
  have hne := ne_configPlace_of_storeAt? hget hst
  obtain ⟨p', must, hread, hplace, hstore⟩ := storeAt?_eq_some_iff.mp hst
  have hsame : ∀ s, s = q ∨ FileTree.Beside q s → (withSettings t m c).get? s = t.get? s :=
    fun s hs => get?_withSettings_of_ne
      (hs.elim (fun heq => heq ▸ hne) ne_configPlace_of_beside)
  exact openStore_of_same hwritable.home.names hread hplace hstore (thins_withSettings hget)
    (hwritable.stay c) hsame hopen

/-! ## What making a project comes to -/

theorem run_kind? (p : Path) :
    (Storage.kind? p : OnTree (Option EntryKind)) t = ((t.find? p).map fun e => e.2.kind, t) := rfl

/-- What the attempt to write settings comes to. -/
theorem run_writeText (l : Layout) (c : ProjectConfig) :
    (Storage.writeText l.configFile c.toJson.indented : OnTree (Except FileFault Unit)) t =
      match t.write l.configFile (settingsBytes c) with
      | .ok t' => (.ok (), t')
      | .error e => (.error e, t) := rfl

/-- A project is not made over settings that are there, unless that is forced. -/
theorem on_create_refused (h : (t.find? l.configFile).isSome) :
    (create l c false).on t =
      (.error (Failure.plain
        s!"Project already initialized at {l.configFile} (use --force to overwrite)"), t) := by
  unfold create
  rw [Task.on_bind_of_ok _ (Task.on_lift _), run_kind?]
  dsimp only
  rw [Option.isSome_map, h]
  rfl

/-- Making a project, if its directories are there in the end and the settings can be written. -/
theorem on_create_of_ok {r : Except Failure Store}
    (hnew : (!force && (t.find? l.configFile).isSome) = false)
    (hmeta : (Storage.makeDirs l.metaDir : OnTree (Except FileFault Unit)) t = (.ok (), t1))
    (hreports : (Storage.makeDirs l.reportsDir : OnTree (Except FileFault Unit)) t1 = (.ok (), t2))
    (hwritable : Writable l m t2)
    (hopen : (openStore (c.storeFile l.root)).on (withSettings t2 m c) = (r, t')) :
    (create l c force).on t = (r.map fun _ => (), t') := by
  have hwritten := run_writeText (t := t2) l c
  rw [(write_eq_ok_iff hwritable.home).mpr ⟨m, hwritable, rfl⟩] at hwritten
  have hopened := (hwritable.configured c).on_openAt hopen
  unfold create
  rw [Task.on_bind_of_ok _ (Task.on_lift _), run_kind?]
  dsimp only
  rw [Option.isSome_map, hnew, if_neg Bool.false_ne_true,
    Task.on_bind_of_ok _ (Task.on_check_of_ok hmeta),
    Task.on_bind_of_ok _ (Task.on_check_of_ok hreports),
    Task.on_bind_of_ok _ (Task.on_check_of_ok hwritten)]
  cases r with
  | error f =>
    rw [Task.on_bind_of_error _ hopened]
    rfl
  | ok s =>
    rw [Task.on_bind_of_ok _ hopened]
    rfl

/-- **What making a project comes to.** It fails with more directories at most, or the settings are
written in a tree with more directories and the history is opened there. -/
theorem on_create_cases {r : Except Failure Unit} (hhome : t.Reaches t.home)
    (h : (create l c force).on t = (r, t')) :
    (∃ f, r = .error f) ∧ t.Grown t' ∨
      ∃ m t2 r', t.Grown t2 ∧ (∃ q, t2.find? l.reportsDir = some (q, .directory)) ∧
        Writable l m t2 ∧
        (openStore (c.storeFile l.root)).on (withSettings t2 m c) = (r', t') ∧
        r = r'.map fun _ => () := by
  by_cases hnew : (!force && (t.find? l.configFile).isSome) = true
  · obtain ⟨rfl, hthere⟩ : force = false ∧ (t.find? l.configFile).isSome = true := by
      simpa using hnew
    rw [on_create_refused hthere] at h
    cases h
    exact Or.inl ⟨⟨_, rfl⟩, .refl t⟩
  rw [Bool.not_eq_true] at hnew
  have hrun := h
  unfold create at hrun
  rw [Task.on_bind_of_ok _ (Task.on_lift _), run_kind?] at hrun
  dsimp only at hrun
  rw [Option.isSome_map, hnew, if_neg Bool.false_ne_true] at hrun
  -- each step of the two directories and the file may be the last one
  obtain ⟨hgrown1, -⟩ := t.attempted_makeDirs l.metaDir
  rcases hmeta : (Storage.makeDirs l.metaDir : OnTree (Except FileFault Unit)) t with ⟨_ | _, t1⟩
  · rw [Task.on_bind_of_error _ (Task.on_check_of_error hmeta)] at hrun
    cases hrun
    rw [hmeta] at hgrown1
    exact Or.inl ⟨⟨_, rfl⟩, hgrown1⟩
  rw [Task.on_bind_of_ok _ (Task.on_check_of_ok hmeta)] at hrun
  rw [hmeta] at hgrown1
  obtain ⟨hgrown2, hthere⟩ := t1.attempted_makeDirs l.reportsDir
  rcases hreports : (Storage.makeDirs l.reportsDir : OnTree (Except FileFault Unit)) t1 with
    ⟨_ | _, t2⟩
  · rw [Task.on_bind_of_error _ (Task.on_check_of_error hreports)] at hrun
    cases hrun
    rw [hreports] at hgrown2
    exact Or.inl ⟨⟨_, rfl⟩, hgrown1.trans hgrown2⟩
  rw [Task.on_bind_of_ok _ (Task.on_check_of_ok hreports)] at hrun
  rw [hreports] at hgrown2 hthere
  have hgrown : t.Grown t2 := hgrown1.trans hgrown2
  cases hwrite : t2.write l.configFile (settingsBytes c) with
  | error e =>
    have hwritten := run_writeText (t := t2) l c
    rw [hwrite] at hwritten
    rw [Task.on_bind_of_error _ (Task.on_check_of_error hwritten)] at hrun
    cases hrun
    exact Or.inl ⟨⟨_, rfl⟩, hgrown⟩
  | ok t3 =>
    obtain ⟨m, hwritable, rfl⟩ := (write_eq_ok_iff (hgrown.stay.reaches_home hhome)).mp hwrite
    rcases hopen : (openStore (c.storeFile l.root)).on (withSettings t2 m c) with ⟨r', t3⟩
    have hcreate := on_create_of_ok hnew hmeta hreports hwritable hopen
    rw [h] at hcreate
    cases hcreate
    exact Or.inr ⟨m, t2, r', hgrown, hthere rfl l.reportsDir_ne_nil, hwritable, hopen, rfl⟩

/-! ## Projects that are made -/

/-- In a directory without any project one can be made. -/
theorem on_create_of_vacant {d : Place} (hhome : t.Reaches t.home)
    (hroot : ¬ "file:".toList <+: l.root.chars) (hc : c.storePath = l.storeFileFromRoot.toString)
    (h : l.Vacant d t) : ∃ t', (create l c force).on t = (.ok (), t') := by
  have hnew : (!force && (t.find? l.configFile).isSome) = false := by
    rw [h.find?_configFile, Option.isSome_none, Bool.and_false]
  have hwritable : Writable l (d ++ [".slicer".toList]) (Layout.prepared d t) := by
    refine ⟨h.grown.stay.reaches_home hhome, h.placed hhome, ?_⟩
    rw [Layout.configPlace, h.get?_inMetaDir]
    exact nofun
  have hwritten := hwritable.configured c
  have hreach := hwritten.placed.reaches hwritten.home
  have hread := l.read_storeFile hroot (Layout.valid_storeFile hwritten.placed.valid)
  have hplace := h.storePlace?_eq hhome hwritten.placed (h.grown.stay.trans (hwritable.stay c))
  -- only the settings stand in the new directory, so that a history can be made there
  have hempty : ∀ n : List Char, n ≠ "project.json".toList →
      (withSettings (Layout.prepared d t) (d ++ [".slicer".toList]) c).get?
        (d ++ [".slicer".toList] ++ [n]) = none := by
    intro n hn
    rw [get?_withSettings_of_ne fun heq => hn (List.singleton_inj.mp (List.append_cancel_left heq))]
    exact h.get?_inMetaDir n
  have hbeside : ∀ ending, FileTree.beside (Layout.storePlace (d ++ [".slicer".toList])) ending =
      d ++ [".slicer".toList] ++ ["project.db".toList ++ ending.toList] := by
    intro ending
    rw [FileTree.beside, Layout.storePlace, List.dropLast_concat, List.getLast?_concat,
      Option.getD_some]
  have hhoused : (withSettings (Layout.prepared d t) (d ++ [".slicer".toList]) c).Housed
      (Layout.storePlace (d ++ [".slicer".toList])) := by
    refine FileTree.housed_of_reaches ?_ ?_ ?_ h.proper_storePlace
      (FileTree.storePlace?_eq_some_iff.mp hplace).2
    · rw [Layout.storePlace, List.dropLast_concat]
      exact hreach
    · exact List.append_ne_nil_of_right_ne_nil _ (List.cons_ne_nil _ _)
    · exact List.forall_mem_append.mpr
        ⟨hreach.names, List.forall_mem_singleton.mpr Layout.isName_store⟩
  obtain ⟨s, t', hopen⟩ := on_openStore_new hread hplace hhoused (hempty _ (by decide))
    (by rw [FileTree.journal, hbeside]; exact hempty _ (by decide))
    (by rw [FileTree.log, hbeside]; exact hempty _ (by decide))
    (by rw [FileTree.isUnnameable, FileTree.journal, hbeside, List.getLast?_concat]; decide +kernel)
  rw [← l.storeFile_eq_of_new c hc] at hopen
  exact ⟨t', on_create_of_ok hnew h.run_metaDir (h.run_reportsDir hhome) hwritable hopen⟩

/-- Opening a project that has just been made finds its settings and the run history that the layout
names. -/
theorem opened_of_create (hhome : t.Reaches t.home) (hroot : ¬ "file:".toList <+: l.root.chars)
    (hc : c.storePath = l.storeFileFromRoot.toString)
    (h : (create l c force).on t = (.ok (), t')) :
    l.Initialised t' ∧ ∃ q s, t'.find? l.storeFile = some (q, .store s) ∧
      (openAt l).on t' = (.ok ⟨l, c, l.storeFile, s⟩, t') := by
  rcases on_create_cases hhome h with
    ⟨⟨f, hf⟩, -⟩ | ⟨m, t2, r', -, ⟨q, hreports⟩, hwritable, hopen, hr⟩
  · cases hf
  have hwritten := hwritable.configured c
  obtain ⟨hend, hstay⟩ := hwritten.after_openStore hopen
  have hread := l.read_storeFile hroot (Layout.valid_storeFile hend.placed.valid)
  have hfile : c.storeFile l.root = l.storeFile := l.storeFile_eq_of_new c hc
  cases r' with
  | error f => cases hr
  | ok s =>
    rw [hfile] at hopen
    rcases on_openStore_cases hwritten.home.names hread hopen with
      ⟨hfail, -⟩ | ⟨q', -, -, -, -, hplace, -⟩
    · exact absurd rfl (hfail s)
    obtain rfl := hwritten.placed.storePlace?_eq hplace
    -- the history keeps its place whatever is done to its file, for it is below directories
    obtain ⟨-, hstore, hagain⟩ := openStore_again hwritten.home.names hread hplace
      (fun t3 htouched =>
        (hwritten.placed.storePlace?_stay hwritten.home htouched.stay).trans hplace) hopen
    have hfound : t'.find? l.storeFile = some (Layout.storePlace m, .store s) := by
      rw [FileTree.find?_eq_some_iff, hend.placed.locate_storeFile, FileTree.spotAt_of_some hstore]
    refine ⟨⟨⟨_, _, hend.find?_configFile⟩, q, ?_⟩, _, s, hfound, ?_⟩
    · exact Layout.find?_reportsDir_stay hwritable.home ((hwritable.stay c).trans hstay) hreports
    · rw [← hfile] at hagain ⊢
      exact hend.on_openAt hagain

/-! ## Projects that are made again -/

/-- Making a project over another one comes to writing the settings and opening the run history that
they name. -/
theorem on_create_again (hhome : t.Reaches t.home) (hl : l.Initialised t) (c : ProjectConfig) :
    ∃ m bytes, Writable l m t ∧ t.get? (Layout.configPlace m) = some (.file bytes) ∧
      ∀ r t', (openStore (c.storeFile l.root)).on (withSettings t m c) = (r, t') →
        (create l c true).on t = (r.map fun _ => (), t') := by
  obtain ⟨⟨q, bytes, hconfig⟩, ⟨q', hreports⟩⟩ := hl
  obtain ⟨m, hplaced, hspot⟩ :=
    Layout.locate_configFile_eq_ok_iff.mp (FileTree.find?_eq_some_iff.mp hconfig)
  have hget := FileTree.get?_of_spotAt_found hspot
  have hmeta := FileTree.find?_eq_some_iff.mpr hplaced.locate_metaDir
  have hwritable : Writable l m t := ⟨hhome, hplaced, by simp [hget]⟩
  refine ⟨m, bytes, hwritable, hget, fun r t' hopen => ?_⟩
  exact on_create_of_ok rfl (FileTree.run_makeDirs_of_found hmeta)
    (FileTree.run_makeDirs_of_found hreports) hwritable hopen

/-- Making a project over another one replaces its settings, also when the run history is refused. -/
theorem replaced_of_create {r : Except Failure Unit} (hhome : t.Reaches t.home)
    (hl : l.Initialised t) (h : (create l c true).on t = (r, t')) :
    l.Initialised t' ∧ (readConfig l).on t' = (.ok c, t') := by
  obtain ⟨m, bytes, hwritable, -, hrun⟩ := on_create_again hhome hl c
  rcases hopen : (openStore (c.storeFile l.root)).on (withSettings t m c) with ⟨r', t1⟩
  rw [hrun r' t1 hopen] at h
  cases h
  obtain ⟨hend, hstay⟩ := (hwritable.configured c).after_openStore hopen
  obtain ⟨q, hreports⟩ := hl.reports
  have hreports' := Layout.find?_reportsDir_stay hhome ((hwritable.stay c).trans hstay) hreports
  exact ⟨⟨⟨_, _, hend.find?_configFile⟩, q, hreports'⟩, hend.on_readConfig⟩

/-- Making a project over another one keeps the run history that stands where the new settings say. It
is refused only if that history could not be opened before either. -/
theorem kept_of_create {r : Except Failure Unit} {st : Store} (hhome : t.Reaches t.home)
    (hl : l.Initialised t) (h : (create l c true).on t = (r, t'))
    (hst : t.storeAt? (c.storeFile l.root) = some (q, st)) :
    ∃ st', t'.get? q = some (.store st') ∧ st.Keeps st' ∧
      (((openStore (c.storeFile l.root)).on t).1.isOk → r = .ok ()) ∧
      (r = .ok () → (openAt l).on t' = (.ok ⟨l, c, c.storeFile l.root, st'⟩, t')) := by
  obtain ⟨m, bytes, hwritable, hget, hrun⟩ := on_create_again hhome hl c
  rcases hopen : (openStore (c.storeFile l.root)).on (withSettings t m c) with ⟨r', t1⟩
  rw [hrun r' t1 hopen] at h
  cases h
  have hwritten := hwritable.configured c
  obtain ⟨st', hend, hkeeps, hagain⟩ :=
    kept_of_openStore hwritten.home (storeAt?_withSettings hhome hget hst) hopen
  refine ⟨st', hend, hkeeps, fun hok => ?_, fun hok => ?_⟩
  · rcases hbefore : (openStore (c.storeFile l.root)).on t with ⟨_ | s2, t2⟩
    · rw [hbefore] at hok
      cases hok
    · obtain ⟨u, hu⟩ := on_openStore_withSettings (c := c) hwritable hget hst hbefore
      rw [hopen] at hu
      cases hu
      rfl
  · cases r' with
    | error f => cases hok
    | ok s2 => exact (hwritten.after_openStore hopen).1.on_openAt (hagain s2 rfl)

/-! ## The theorem -/

/-- **Making a project is faithful and loses no history.** The path of the run history in new settings
leads from every root to where the layout has the history. In a directory without a project one can be
made, and whenever one was made with such settings, opening it returns these settings and the history
that stands there; the root must not start with `file:`, for that makes an address of the path. Over
another project nothing is made, and nothing changed, unless that is forced; then the settings are
replaced, and a history where the new settings say is kept, whatever else goes wrong, and is opened
if it could be opened before. -/
theorem initialising_faithful (l : Layout) (c : ProjectConfig) (t : FileTree)
    (hhome : t.Reaches t.home) :
    (c.storePath = l.storeFileFromRoot.toString → c.storeFile l.root = l.storeFile) ∧
    (c.storePath = l.storeFileFromRoot.toString → ¬ "file:".toList <+: l.root.chars →
      ∀ force,
        ((∃ d, l.Vacant d t) → ∃ t', (create l c force).on t = (.ok (), t')) ∧
        ∀ t', (create l c force).on t = (.ok (), t') →
          l.Initialised t' ∧ ∃ q s, t'.find? l.storeFile = some (q, .store s) ∧
            (openAt l).on t' = (.ok ⟨l, c, l.storeFile, s⟩, t')) ∧
    (l.Initialised t →
      (∃ f, (create l c false).on t = (.error f, t)) ∧
      ∀ r t', (create l c true).on t = (r, t') →
        l.Initialised t' ∧ (readConfig l).on t' = (.ok c, t') ∧
        ∀ q s, t.storeAt? (c.storeFile l.root) = some (q, s) →
          ∃ s', t'.get? q = some (.store s') ∧ s.Keeps s' ∧
            (((openStore (c.storeFile l.root)).on t).1.isOk → r = .ok ()) ∧
            (r = .ok () → (openAt l).on t' = (.ok ⟨l, c, c.storeFile l.root, s'⟩, t'))) := by
  refine ⟨l.storeFile_eq_of_new c, fun hc hroot force => ⟨?_, ?_⟩, fun hl => ⟨?_, ?_⟩⟩
  · rintro ⟨d, hvacant⟩
    exact on_create_of_vacant hhome hroot hc hvacant
  · exact fun t' h => opened_of_create hhome hroot hc h
  · obtain ⟨q, bytes, hconfig⟩ := hl.settings
    exact ⟨_, on_create_refused (by rw [hconfig]; rfl)⟩
  · intro r t' h
    obtain ⟨hmade, hread⟩ := replaced_of_create hhome hl h
    exact ⟨hmade, hread, fun q s hs => kept_of_create hhome hl h hs⟩

/-- A tree with nothing but a working directory. -/
def emptyHome : FileTree where
  entry p := if p = ["work".toList] then some .directory else none
  home := ["work".toList]
  clock := "2024-01-01T00:00:00+00:00"

theorem reaches_work (h : t.get? ["work".toList] = some .directory) :
    t.Reaches ["work".toList] :=
  (FileTree.Reaches.nil t).concat (by decide +kernel) h

/-- A project in the working directory. -/
def atHome : Layout := ⟨.ofString ""⟩

/-- A history of the second version with one run. -/
def oldHistory : Store where
  version := 2
  runs := some
    { hasError := false
      rows := [
        { id := 1, binary := "tool", mode := "code", binaryHash := none, status := "succeeded",
          accepted := 0, rejected := 0, error := none, startedAt := "2024-01-01T00:00:00+00:00",
          finishedAt := "2024-01-01T00:00:00+00:00" }]
      lastId := 1 }
  slices := some OrderedMap.empty
  resized := some OrderedMap.empty
  rejections := some OrderedMap.empty

/-- The place with these names on the way from the root. -/
def placeNamed (names : List String) : Place := names.map String.toList

/-- A tree with a project in the working directory, whose settings cannot be read any more. -/
def oldProject : FileTree :=
  (((emptyHome.put (placeNamed ["work", ".slicer"]) .directory).put
    (placeNamed ["work", "reports"]) .directory).put
    (placeNamed ["work", ".slicer", "project.json"]) (.file [0x7b])).put
    (placeNamed ["work", ".slicer", "project.db"]) (.store oldHistory)

def renamed : ProjectConfig := { name := "renamed", storePath := ".slicer/project.db" }

/-- A project is made in the tree with nothing but a working directory, and the one that is there is
made again with another name and keeps its history. -/
theorem initialising_oldProject :
    renamed.storePath = atHome.storeFileFromRoot.toString ∧
      ¬ "file:".toList <+: atHome.root.chars ∧
    (emptyHome.Reaches emptyHome.home ∧ atHome.Vacant ["work".toList] emptyHome ∧
      ∃ t' s, (create atHome renamed false).on emptyHome = (.ok (), t') ∧
        (openAt atHome).on t' = (.ok ⟨atHome, renamed, atHome.storeFile, s⟩, t')) ∧
    oldProject.Reaches oldProject.home ∧ atHome.Initialised oldProject ∧
      oldProject.storeAt? (renamed.storeFile atHome.root) =
        some (placeNamed ["work", ".slicer", "project.db"], oldHistory) ∧
      ∃ t' s', (create atHome renamed true).on oldProject = (.ok (), t') ∧
        (readConfig atHome).on t' = (.ok renamed, t') ∧
        t'.get? (placeNamed ["work", ".slicer", "project.db"]) = some (.store s') ∧
        oldHistory.Keeps s' := by
  have hpath : renamed.storePath = atHome.storeFileFromRoot.toString := by decide +kernel
  have hroot : ¬ "file:".toList <+: atHome.root.chars := by decide
  refine ⟨hpath, hroot, ?fresh, ?again⟩
  case fresh =>
    have hhome : emptyHome.Reaches emptyHome.home := reaches_work rfl
    have hvacant : atHome.Vacant ["work".toList] emptyHome :=
      { leads := .here rfl
        proper := by decide +kernel
        valid := ⟨by decide +kernel, by decide +kernel, by decide +kernel⟩
        reports := rfl
        clear := fun q hq =>
          (if_neg (by rintro rfl; revert hq; decide)).trans
            (if_neg (by rintro rfl; revert hq; decide))
        fits := by decide +kernel }
    obtain ⟨-, hnew, -⟩ := initialising_faithful atHome renamed emptyHome hhome
    obtain ⟨hmakes, hopens⟩ := hnew hpath hroot false
    obtain ⟨t', ht'⟩ := hmakes ⟨_, hvacant⟩
    obtain ⟨-, q, s, -, hopen⟩ := hopens t' ht'
    exact ⟨hhome, hvacant, t', s, ht', hopen⟩
  case again =>
    have hhome : oldProject.Reaches oldProject.home := reaches_work rfl
    have hmade : atHome.Initialised oldProject := ⟨⟨_, _, rfl⟩, ⟨_, rfl⟩⟩
    have hold : oldProject.storeAt? (renamed.storeFile atHome.root) =
        some (placeNamed ["work", ".slicer", "project.db"], oldHistory) := rfl
    obtain ⟨-, -, hagain⟩ := initialising_faithful atHome renamed oldProject hhome
    obtain ⟨-, hforced⟩ := hagain hmade
    rcases hrun : (create atHome renamed true).on oldProject with ⟨r, t'⟩
    obtain ⟨-, hread, hkept⟩ := hforced r t' hrun
    obtain ⟨s', hstands, hkeeps, hok, -⟩ := hkept _ oldHistory hold
    obtain rfl := hok (by decide +kernel)
    exact ⟨hhome, hmade, hold, t', s', rfl, hread, hstands, hkeeps⟩

/-- A project whose root is taken for the address of a file. -/
def atAddress : Layout := ⟨.ofString "file:x?"⟩

/-- The place of its settings and, as the layout has it, its history. -/
def addressMeta : Place := placeNamed ["work", "file:x?", ".slicer"]

/-- A tree with the directories of that project. -/
def addressHome : FileTree :=
  ((emptyHome.put (placeNamed ["work", "file:x?"]) .directory).put addressMeta .directory).put
    (placeNamed ["work", "file:x?", "reports"]) .directory

def addressSettings : FileTree := withSettings addressHome addressMeta renamed

/-- The project is made, but its history is in another file than the one that the layout names. -/
theorem history_elsewhere :
    renamed.storePath = atAddress.storeFileFromRoot.toString ∧
      ∃ t', (create atAddress renamed false).on addressHome = (.ok (), t') ∧
        t'.find? atAddress.storeFile = none ∧
        (t'.find? (.ofString "x")).map Prod.fst = some (placeNamed ["work", "x"]) := by
  have hhome : addressHome.Reaches addressHome.home := reaches_work rfl
  have hplaced : atAddress.Placed addressMeta addressHome := by
    have hpieces : atAddress.metaPieces = ["file:x?".toList, ".slicer".toList] := by decide +kernel
    refine ⟨?_, by decide +kernel, by decide +kernel, by decide +kernel⟩
    rw [hpieces]
    exact .into rfl (by decide +kernel) (by decide +kernel)
      (.into rfl (by decide +kernel) (by decide +kernel) (.here rfl))
  have hwritable : Writable atAddress addressMeta addressHome := ⟨hhome, hplaced, nofun⟩
  have hmeta := FileTree.find?_eq_some_iff.mpr hplaced.locate_metaDir
  have hreports : addressHome.find? atAddress.reportsDir =
      some (placeNamed ["work", "file:x?", "reports"], .directory) := rfl
  have hopens : ((openStore atAddress.storeFile).on addressSettings).1.isOk = true := by
    decide +kernel
  have hmissing : (((openStore atAddress.storeFile).on addressSettings).2.find?
      atAddress.storeFile).isNone = true := by
    decide +kernel
  have hthere : (((openStore atAddress.storeFile).on addressSettings).2.find?
      (.ofString "x")).map Prod.fst = some (placeNamed ["work", "x"]) := by
    decide +kernel
  rcases hrun : (openStore atAddress.storeFile).on addressSettings with ⟨r, t'⟩
  rw [hrun] at hopens hmissing hthere
  have hpath : renamed.storePath = atAddress.storeFileFromRoot.toString := by decide +kernel
  have hnew : (!false && (addressHome.find? atAddress.configFile).isSome) = false := by
    decide +kernel
  rw [← atAddress.storeFile_eq_of_new renamed hpath] at hrun
  have hcreate := on_create_of_ok hnew (FileTree.run_makeDirs_of_found hmeta)
    (FileTree.run_makeDirs_of_found hreports) hwritable hrun
  cases r with
  | error f => cases hopens
  | ok s =>
    exact ⟨hpath, t', hcreate, Option.isNone_iff_eq_none.mp hmissing, hthere⟩

end Project
end SliceRecovery
