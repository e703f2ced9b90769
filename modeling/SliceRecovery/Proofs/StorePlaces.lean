import SliceRecovery.Files.StoreFile
import SliceRecovery.Proofs.OnTrees

/-!
# SliceRecovery.Proofs.StorePlaces -- the place of a store stays the place of the store

The place of a store follows from the text of its path (`storePlace?_unique`), but the steps on the way
can be stopped by what stands there. Three reasons are given why they are not stopped after a change
if they were not before: the pieces lead through directories, and those stay
(`storePlace?_of_leads`); the last of these directories was made (`storePlace?_of_made`); or nothing
came to stand where nothing stood, and no directory became a file (`storePlace?_of_thins`).
-/

namespace SliceRecovery

/-- Where a piece leads, on its text alone. -/
def Place.onward (here : Place) (piece : List Char) : Place :=
  if Path.isIdle piece then here
  else if piece = ['.', '.'] then here.dropLast
  else here ++ [piece]

namespace FileTree

open SliceRecovery.Path (IsName nameSize isIdle)

variable {t t' t'' : FileTree} {here m q r s : Place} {n piece : List Char}
  {ps : List (List Char)} {e : Entry} {p : Path}

theorem onward_name (hn : IsName n) : here.onward n = here ++ [n] := by
  rw [Place.onward, hn.active, if_neg Bool.false_ne_true, if_neg hn.notUp]

/-! ## Steps -/

/-- A walk that is stopped by something in the way. -/
def isBlocked : Except FileFault Spot → Bool
  | .error .notDirectory | .error .nameTooLong => true
  | _ => false

theorem step?_idle (h : isIdle piece = true) : t.step? here piece = some here := if_pos h

theorem step?_up : t.step? here ['.', '.'] = some here.dropLast := rfl

theorem step?_name (hidle : isIdle n = false) (hup : n ≠ ['.', '.']) :
    t.step? here n =
      if stepLimit < pathSize (here ++ [n]) then none
      else if isBlocked (t.locate (Place.path (here ++ [n]))) then none
      else some (here ++ [n]) := by
  rw [step?, hidle, if_neg Bool.false_ne_true, if_neg hup]
  dsimp only
  congr 1
  split
  · rename_i h
    rw [h]
    rfl
  · rename_i h
    rw [h]
    rfl
  · rename_i hdirectory hlong
    rw [if_neg]
    unfold isBlocked
    split
    · rename_i h
      exact absurd h hdirectory
    · rename_i h
      exact absurd h hlong
    · exact Bool.false_ne_true

/-- A step leads where the text says, if it leads anywhere. -/
theorem onward_of_step? (h : t.step? here piece = some q) : here.onward piece = q := by
  unfold Place.onward
  by_cases hidle : isIdle piece = true
  · rw [step?_idle hidle] at h
    rw [if_pos hidle]
    exact Option.some.inj h
  rw [if_neg hidle]
  by_cases hup : piece = ['.', '.']
  · subst hup
    rw [step?_up] at h
    rw [if_pos rfl]
    exact Option.some.inj h
  rw [if_neg hup]
  rw [step?_name (Bool.not_eq_true _ ▸ hidle) hup] at h
  split at h
  · cases h
  split at h
  · cases h
  · exact Option.some.inj h

theorem foldlM_step?_cons (h : t.step? here piece = some q) :
    (piece :: ps).foldlM t.step? here = ps.foldlM t.step? q := by
  rw [List.foldlM_cons, h, Option.bind_eq_bind, Option.bind_some]

theorem foldl_onward (h : ps.foldlM t.step? here = some q) : ps.foldl Place.onward here = q := by
  induction ps generalizing here with
  | nil => exact Option.some.inj h
  | cons piece ps ih =>
    rw [List.foldlM_cons] at h
    obtain ⟨next, hnext, hrest⟩ := Option.bind_eq_some_iff.mp h
    rw [List.foldl_cons, onward_of_step? hnext, ih hrest]

theorem Leads.foldl_onward (h : t.Leads here ps m) : ps.foldl Place.onward here = m := by
  induction h with
  | here _ => rfl
  | idle _ hpiece _ ih =>
    rw [List.foldl_cons, Place.onward, if_pos hpiece]
    exact ih
  | up _ _ ih => exact ih
  | into _ hn _ _ ih =>
    rw [List.foldl_cons, onward_name hn]
    exact ih

theorem storePlace?_eq_some_iff :
    t.storePlace? p = some q ↔
      (Path.cut p.chars).foldlM t.step? (t.start p) = some q ∧ pathSize q ≤ storeLimit := by
  unfold storePlace? start
  rw [Option.bind_eq_bind, Option.bind_eq_some_iff]
  constructor
  · rintro ⟨r, hr, h⟩
    split at h
    · cases h
    · rename_i hsize
      cases h
      exact ⟨hr, Nat.not_lt.mp hsize⟩
  · rintro ⟨hq, hsize⟩
    exact ⟨q, hq, if_neg (Nat.not_lt.mpr hsize)⟩

theorem start_eq (h : t'.home = t.home) (p : Path) : t'.start p = t.start p := by
  unfold start
  rw [h]

/-- **The place of a store is a matter of the text of its path.** -/
theorem storePlace?_unique (hhome : t'.home = t.home) (h : t.storePlace? p = some q)
    (h' : t'.storePlace? p = some r) : r = q := by
  obtain ⟨hq, -⟩ := storePlace?_eq_some_iff.mp h
  obtain ⟨hr, -⟩ := storePlace?_eq_some_iff.mp h'
  rw [start_eq hhome] at hr
  exact (foldl_onward hr).symm.trans (foldl_onward hq)

theorem names_onward (hhere : ∀ n ∈ here, IsName n) (hpiece : '/' ∉ piece) :
    ∀ n ∈ here.onward piece, IsName n := by
  unfold Place.onward
  split
  · exact hhere
  split
  · exact fun n hn => hhere n (List.dropLast_subset _ hn)
  · rename_i hidle hup
    refine List.forall_mem_append.mpr ⟨hhere, List.forall_mem_singleton.mpr ?_⟩
    exact ⟨hpiece, Bool.not_eq_true _ ▸ hidle, hup⟩

/-- The place of a store has proper names. -/
theorem names_of_storePlace? (hhome : ∀ n ∈ t.home, IsName n) (h : t.storePlace? p = some q) :
    ∀ n ∈ q, IsName n := by
  have hfold : ∀ (ps : List (List Char)) (here : Place), (∀ piece ∈ ps, '/' ∉ piece) →
      (∀ n ∈ here, IsName n) → ∀ n ∈ ps.foldl Place.onward here, IsName n := by
    intro ps
    induction ps with
    | nil => exact fun _ _ hhere => hhere
    | cons piece ps ih =>
      intro here hps hhere
      obtain ⟨hpiece, hps⟩ := List.forall_mem_cons.mp hps
      exact ih _ hps (names_onward hhere hpiece)
  obtain ⟨hq, -⟩ := storePlace?_eq_some_iff.mp h
  rw [← foldl_onward hq]
  refine hfold _ _ (fun piece hpiece => Path.not_mem_of_mem_cut hpiece) ?_
  unfold start
  split
  · exact List.forall_mem_nil _
  · exact hhome

/-! ## Ways through directories -/

theorem locate_path (h : ∀ n ∈ q, IsName n) (hq : q ≠ []) :
    t.locate (Place.path q) =
      if (Place.path q).chars.contains '\x00' then .error .badName
      else if 4096 ≤ pathSize q then .error .nameTooLong
      else t.walk [] q := by
  have hchars : (Place.path q).chars ≠ [] := List.cons_ne_nil _ _
  unfold locate
  rw [if_neg hchars, cut_path h hq]
  rw [show (Place.path q).isAbsolute = true from rfl, if_pos rfl, walk_idle t.get?_nil rfl]
  rfl

/-- A walk down through reached directories is stopped only by a name that is too long. -/
theorem isBlocked_walk_of_reaches (h : t.Reaches (here ++ ps)) (hn : IsName n) :
    isBlocked (t.walk here (ps ++ [n])) = (ps ++ [n]).any fun k => 255 < nameSize k := by
  induction ps generalizing here with
  | nil =>
    rw [List.append_nil] at h
    rw [List.nil_append, walk_single h.directory hn]
    by_cases hsize : 255 < nameSize n
    · simp [hsize, isBlocked]
    · simp [hsize, isBlocked]
  | cons k ps ih =>
    rw [List.append_cons] at h
    have hk : IsName k := h.names k (by simp)
    have hhere : t.get? here = some .directory :=
      h.directories here (by rw [List.append_assoc]; exact List.prefix_append _ _)
    have hnext : t.get? (here ++ [k]) = some .directory :=
      h.directories _ (List.prefix_append _ _)
    rw [List.cons_append, walk_name hhere hk.active hk.notUp, hnext, List.any_cons]
    by_cases hsize : 255 < nameSize k
    · rw [if_pos hsize, decide_eq_true hsize]
      rfl
    · rw [if_neg hsize, decide_eq_false hsize, Bool.false_or]
      exact ih h

/-- The next step from a reached directory is the same in all trees that reach it. -/
theorem step?_of_reaches (h : t.Reaches here) (h' : t'.Reaches here) (hpiece : '/' ∉ piece) :
    t'.step? here piece = t.step? here piece := by
  by_cases hidle : isIdle piece = true
  · rw [step?_idle hidle, step?_idle hidle]
  by_cases hup : piece = ['.', '.']
  · subst hup
    rw [step?_up, step?_up]
  rw [Bool.not_eq_true] at hidle
  have hname : IsName piece := ⟨hpiece, hidle, hup⟩
  have hnames : ∀ k ∈ here ++ [piece], IsName k :=
    List.forall_mem_append.mpr ⟨h.names, List.forall_mem_singleton.mpr hname⟩
  have hne : here ++ [piece] ≠ [] := List.append_ne_nil_of_right_ne_nil _ (List.cons_ne_nil _ _)
  have hwalk : isBlocked (t'.walk [] (here ++ [piece])) = isBlocked (t.walk [] (here ++ [piece])) := by
    rw [isBlocked_walk_of_reaches h' hname, isBlocked_walk_of_reaches h hname]
  rw [step?_name hidle hup, step?_name hidle hup, locate_path hnames hne, locate_path hnames hne]
  by_cases hzero : (Place.path (here ++ [piece])).chars.contains '\x00' = true
  · rw [if_pos hzero, if_pos hzero]
  · rw [if_neg hzero, if_neg hzero]
    by_cases hlong : 4096 ≤ pathSize (here ++ [piece])
    · rw [if_pos hlong, if_pos hlong]
    · rw [if_neg hlong, if_neg hlong, hwalk]

/-- Steps along pieces that lead through directories are the same as long as these stay. -/
theorem foldlM_step?_of_leads (hlead : t.Leads here ps m) (hhere : t.Reaches here)
    (hps : ∀ piece ∈ ps, '/' ∉ piece) (hstay : t.DirectoriesStay t') :
    ps.foldlM t'.step? here = ps.foldlM t.step? here := by
  induction hlead with
  | here _ => rw [List.foldlM_nil, List.foldlM_nil]
  | idle _ hpiece _ ih =>
    obtain ⟨-, hrest⟩ := List.forall_mem_cons.mp hps
    rw [foldlM_step?_cons (step?_idle hpiece), foldlM_step?_cons (step?_idle hpiece),
      ih hhere hrest]
  | up _ _ ih =>
    obtain ⟨-, hrest⟩ := List.forall_mem_cons.mp hps
    rw [foldlM_step?_cons step?_up, foldlM_step?_cons step?_up, ih hhere.dropLast hrest]
  | @into p _ n rest _ hn _ hnext ih =>
    obtain ⟨hslash, hrest⟩ := List.forall_mem_cons.mp hps
    have hsame := step?_of_reaches hhere (hstay.reaches hhere) hslash
    cases hstep : t.step? p n with
    | none =>
      rw [List.foldlM_cons, List.foldlM_cons, hsame, hstep, Option.bind_eq_bind, Option.bind_none,
        Option.bind_none]
    | some r =>
      obtain rfl : p ++ [n] = r := (onward_name hn).symm.trans (onward_of_step? hstep)
      rw [foldlM_step?_cons hstep, foldlM_step?_cons (hsame.trans hstep),
        ih (hhere.concat hn hnext.directory) hrest]

/-- **A store below directories that stay keeps its place**, whatever becomes of the file itself. -/
theorem storePlace?_of_leads (hcut : Path.cut p.chars = ps ++ [n])
    (hlead : t.Leads (t.start p) ps m) (hhome : t.Reaches t.home) (hstay : t.DirectoriesStay t') :
    t'.storePlace? p = t.storePlace? p := by
  have hpieces : ∀ piece ∈ ps ++ [n], '/' ∉ piece := fun piece hpiece =>
    Path.not_mem_of_mem_cut (hcut ▸ hpiece)
  obtain ⟨hps, hn⟩ := List.forall_mem_append.mp hpieces
  have hstart := reaches_start hhome p
  have hm := hlead.reaches hstart
  have hfold : (ps ++ [n]).foldlM t'.step? (t.start p) = (ps ++ [n]).foldlM t.step? (t.start p) := by
    rw [List.foldlM_append, List.foldlM_append,
      foldlM_step?_of_leads hlead hstart hps hstay]
    -- the last step may be refused, but from the same directory in both trees
    cases hr : ps.foldlM t.step? (t.start p) with
    | none => rw [Option.bind_eq_bind, Option.bind_none, Option.bind_none]
    | some r =>
      have hrm : r = m := (foldl_onward hr).symm.trans hlead.foldl_onward
      subst hrm
      rw [Option.bind_eq_bind, Option.bind_some, Option.bind_some, List.foldlM_cons,
        List.foldlM_cons, step?_of_reaches hm (hstay.reaches hm) (hn n (List.mem_singleton_self n))]
      simp only [List.foldlM_nil]
  rw [Option.ext_iff]
  intro q
  rw [storePlace?_eq_some_iff, storePlace?_eq_some_iff, hcut,
    start_eq hstay.home, hfold]

/-- The place of such a store is below the directory that the pieces lead to. -/
theorem storePlace?_eq_of_leads (hcut : Path.cut p.chars = ps ++ [n])
    (hlead : t.Leads (t.start p) ps m) (hn : IsName n) (h : t.storePlace? p = some q) :
    q = m ++ [n] := by
  obtain ⟨hq, -⟩ := storePlace?_eq_some_iff.mp h
  rw [← foldl_onward hq, hcut, List.foldl_append, hlead.foldl_onward, List.foldl_cons,
    onward_name hn, List.foldl_nil]

/-- A name below a reached directory is no obstacle unless the path or a name is too long. -/
theorem step?_eq_some_of_reaches (h : t.Reaches here) (hn : IsName n)
    (hsizes : ∀ k ∈ here ++ [n], nameSize k ≤ 255) (hshort : pathSize (here ++ [n]) ≤ stepLimit) :
    t.step? here n = some (here ++ [n]) := by
  have hnames : ∀ k ∈ here ++ [n], IsName k :=
    List.forall_mem_append.mpr ⟨h.names, List.forall_mem_singleton.mpr hn⟩
  have hne : here ++ [n] ≠ [] := List.append_ne_nil_of_right_ne_nil _ (List.cons_ne_nil _ _)
  have hfree : isBlocked (t.locate (Place.path (here ++ [n]))) = false := by
    rw [locate_path hnames hne]
    have hwalk : isBlocked (t.walk [] (here ++ [n])) = (here ++ [n]).any fun k => 255 < nameSize k :=
      isBlocked_walk_of_reaches h hn
    split
    · rfl
    · rw [if_neg (by unfold stepLimit at hshort; omega), hwalk]
      simpa [or_imp, forall_and] using hsizes
  rw [step?_name hn.active hn.notUp, if_neg (Nat.not_lt.mpr hshort), hfree,
    if_neg Bool.false_ne_true]

/-- A store keeps its place when the directory that it is to stand in is made. -/
theorem storePlace?_of_made {k : List Char} (hcut : Path.cut p.chars = ps ++ [k, n])
    (hk : IsName k) (hn : IsName n) (hlead : t.Leads (t.start p) ps m) (hhome : t.Reaches t.home)
    (hstay : t.DirectoriesStay t') (hmade : t'.get? (m ++ [k]) = some .directory)
    (hsizes : ∀ i ∈ m ++ [k] ++ [n], nameSize i ≤ 255) (h : t.storePlace? p = some q) :
    t'.storePlace? p = some q := by
  have hps : ∀ piece ∈ ps, '/' ∉ piece := fun piece hpiece =>
    Path.not_mem_of_mem_cut (hcut ▸ List.mem_append_left _ hpiece)
  obtain ⟨hq, hshort⟩ := storePlace?_eq_some_iff.mp h
  have hstart := reaches_start hhome p
  have hm := hlead.reaches hstart
  have hmade' := (hstay.reaches hm).concat hk hmade
  rw [hcut, List.foldlM_append] at hq
  obtain ⟨r, hr, hrest⟩ := Option.bind_eq_some_iff.mp hq
  obtain rfl : r = m := (foldl_onward hr).symm.trans hlead.foldl_onward
  rw [List.foldlM_cons] at hrest
  obtain ⟨r1, hr1, hlast⟩ := Option.bind_eq_some_iff.mp hrest
  obtain rfl : r ++ [k] = r1 := (onward_name hk).symm.trans (onward_of_step? hr1)
  obtain rfl : r ++ [k] ++ [n] = q := (onward_name hn).symm.trans (foldl_onward hlast)
  -- the step to the directory was free before; the one into it now is, as no name is too long
  have hstep : t'.step? r k = some (r ++ [k]) :=
    (step?_of_reaches hm (hstay.reaches hm) hk.noSlash).trans hr1
  have hstep' : t'.step? (r ++ [k]) n = some (r ++ [k] ++ [n]) :=
    step?_eq_some_of_reaches hmade' hn hsizes (Nat.le_trans hshort (by decide))
  refine storePlace?_eq_some_iff.mpr ⟨?_, hshort⟩
  rw [hcut, start_eq hstay.home, List.foldlM_append, foldlM_step?_of_leads hlead hstart hps hstay, hr,
    Option.bind_eq_bind, Option.bind_some, foldlM_step?_cons hstep, foldlM_step?_cons hstep',
    List.foldlM_nil]
  rfl

/-! ## Ways through trees that lose entries -/

/-- Nothing is there that was not there, and no file is a directory or the other way round. -/
structure Thins (t t' : FileTree) : Prop where
  home : t'.home = t.home
  kind : ∀ q, t'.get? q = none ∨ (t'.get? q).map Entry.kind = (t.get? q).map Entry.kind

namespace Thins

theorem refl (t : FileTree) : t.Thins t := ⟨rfl, fun _ => Or.inr rfl⟩

theorem trans (h : t.Thins t') (h' : t'.Thins t'') : t.Thins t'' where
  home := h'.home.trans h.home
  kind q := by
    rcases h'.kind q with hq' | hq'
    · exact Or.inl hq'
    · rcases h.kind q with hq | hq
      · rw [hq] at hq'
        exact Or.inl (Option.map_eq_none_iff.mp hq')
      · exact Or.inr (hq'.trans hq)

theorem prune (hs : s ≠ []) : t.Thins (t.prune s) where
  home := rfl
  kind q := by
    by_cases h : s <+: q
    · exact Or.inl (get?_prune_below hs h)
    · exact Or.inr (by rw [get?_prune_elsewhere h])

/-- An entry may be put in the place of one of the same kind. -/
theorem put {e' : Entry} (h : t.get? q = some e') (hkind : e.kind = e'.kind) :
    t.Thins (t.put q e) where
  home := rfl
  kind r := by
    by_cases hr : r = q
    · subst hr
      by_cases hnil : r = []
      · exact Or.inr (by rw [hnil, get?_put_nil])
      · rw [get?_put_self hnil, h]
        exact Or.inr (congrArg some hkind)
    · exact Or.inr (by rw [get?_put_of_ne hr])

/-- No walk along names is stopped that was not stopped before. -/
theorem isBlocked_walk (h : t.Thins t') (hps : ∀ n ∈ ps, IsName n)
    (hblocked : isBlocked (t'.walk here ps) = true) : isBlocked (t.walk here ps) = true := by
  induction ps generalizing here with
  | nil =>
    rw [walk] at hblocked
    split at hblocked <;> cases hblocked
  | cons n ps ih =>
    obtain ⟨hn, hps⟩ := List.forall_mem_cons.mp hps
    cases hhere : t'.get? here with
    | none =>
      rw [walk, hhere] at hblocked
      cases hblocked
    | some e =>
      have hkind : some e.kind = (t.get? here).map Entry.kind := by
        rcases h.kind here with hnone | hkind
        · rw [hhere] at hnone
          cases hnone
        · rwa [hhere] at hkind
      obtain ⟨e', he', hsame⟩ := Option.map_eq_some_iff.mp hkind.symm
      by_cases hdir : e = .directory
      · subst hdir
        have hdir' : e' = .directory := by cases e' <;> first | rfl | cases hsame
        subst hdir'
        rw [walk_name hhere hn.active hn.notUp] at hblocked
        rw [walk_name he' hn.active hn.notUp]
        split at hblocked
        · rename_i hsize
          rw [if_pos hsize]
          rfl
        rename_i hsize
        rw [if_neg hsize]
        cases hnext : t'.get? (here ++ [n]) with
        | none =>
          rw [hnext] at hblocked
          dsimp only at hblocked
          split at hblocked
          · cases hblocked
          split at hblocked <;> cases hblocked
        | some next =>
          rw [hnext] at hblocked
          cases hnext' : t.get? (here ++ [n]) with
          | none =>
            rcases h.kind (here ++ [n]) with hnone | hkind
            · rw [hnext] at hnone
              cases hnone
            · rw [hnext, hnext'] at hkind
              cases hkind
          | some next' => exact ih hps hblocked
      · -- what is no directory stops both walks
        rw [walk, he']
        cases e' with
        | directory => cases e <;> first | exact absurd rfl hdir | cases hsame
        | file => rfl
        | store => rfl

theorem step? (h : t.Thins t') (hhere : ∀ n ∈ here, IsName n) (hpiece : '/' ∉ piece)
    (hstep : t.step? here piece = some q) : t'.step? here piece = some q := by
  by_cases hidle : isIdle piece = true
  · rwa [step?_idle hidle] at hstep ⊢
  by_cases hup : piece = ['.', '.']
  · subst hup
    rwa [step?_up] at hstep ⊢
  rw [Bool.not_eq_true] at hidle
  have hnames : ∀ k ∈ here ++ [piece], IsName k :=
    List.forall_mem_append.mpr ⟨hhere, List.forall_mem_singleton.mpr ⟨hpiece, hidle, hup⟩⟩
  have hne : here ++ [piece] ≠ [] := List.append_ne_nil_of_right_ne_nil _ (List.cons_ne_nil _ _)
  have hlocate : isBlocked (t'.locate (Place.path (here ++ [piece]))) = true →
      isBlocked (t.locate (Place.path (here ++ [piece]))) = true := by
    rw [locate_path hnames hne, locate_path hnames hne]
    split
    · exact id
    split
    · exact id
    · exact h.isBlocked_walk hnames
  rw [step?_name hidle hup] at hstep ⊢
  split at hstep
  · cases hstep
  rename_i hsize
  split at hstep
  · cases hstep
  rename_i hfree
  rw [if_neg hsize, if_neg fun hblocked => hfree (hlocate hblocked)]
  exact hstep

end Thins

theorem foldlM_step?_of_thins (h : t.Thins t') (hhere : ∀ n ∈ here, IsName n)
    (hps : ∀ piece ∈ ps, '/' ∉ piece) (hfold : ps.foldlM t.step? here = some q) :
    ps.foldlM t'.step? here = some q := by
  induction ps generalizing here with
  | nil => rwa [List.foldlM_nil] at hfold ⊢
  | cons piece ps ih =>
    obtain ⟨hpiece, hps⟩ := List.forall_mem_cons.mp hps
    rw [List.foldlM_cons] at hfold ⊢
    obtain ⟨next, hnext, hrest⟩ := Option.bind_eq_some_iff.mp hfold
    have hnames := names_onward hhere hpiece
    rw [onward_of_step? hnext] at hnames
    rw [h.step? hhere hpiece hnext]
    exact ih hnames hps hrest

/-- **A store keeps its place where entries only go.** -/
theorem storePlace?_of_thins (h : t.Thins t') (hhome : ∀ n ∈ t.home, IsName n)
    (hplace : t.storePlace? p = some q) : t'.storePlace? p = some q := by
  obtain ⟨hfold, hsize⟩ := storePlace?_eq_some_iff.mp hplace
  have hstart : ∀ n ∈ t.start p, IsName n := by
    unfold start
    split
    · exact List.forall_mem_nil _
    · exact hhome
  rw [storePlace?_eq_some_iff, start_eq h.home]
  exact ⟨foldlM_step?_of_thins h hstart (fun _ => Path.not_mem_of_mem_cut) hfold, hsize⟩

end FileTree
end SliceRecovery
