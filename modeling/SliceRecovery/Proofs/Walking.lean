import SliceRecovery.Files.Tree
import SliceRecovery.Proofs.Paths

/-!
# SliceRecovery.Proofs.Walking -- where paths lead, and what changes that

`Reaches` says that a place can be walked to: its names are names, and directories stand at every
step of the way. Pieces that lead from one directory to another (`Leads`) pass through reached places
only, so they lead to the same one as long as directories stay (`Leads.stay`). The places that commands
write to have a name as their last piece; such a path leads to that name in the directory that the
pieces in front lead to (`locate_name_eq_ok_iff`), whatever stands there.
-/

namespace SliceRecovery

namespace Path

/-- A piece that names something in a directory. -/
structure IsName (n : List Char) : Prop where
  noSlash : '/' ∉ n
  active : isIdle n = false
  notUp : n ≠ ['.', '.']

instance : DecidablePred IsName := fun n =>
  decidable_of_iff ('/' ∉ n ∧ isIdle n = false ∧ n ≠ ['.', '.'])
    ⟨fun h => ⟨h.1, h.2.1, h.2.2⟩, fun h => ⟨h.1, h.2, h.3⟩⟩

/-- Number of bytes of a name. -/
def nameSize (n : List Char) : Nat := (Text.Utf8.bytes (String.ofList n)).length

/-- A text that can be walked along. -/
structure Valid (p : Path) : Prop where
  nonempty : p.chars ≠ []
  noZero : p.chars.contains '\x00' = false
  short : (Text.Utf8.bytes p.toString).length < 4096

end Path

namespace FileTree

open SliceRecovery.Path (IsName nameSize isIdle)

variable {t t' t'' : FileTree} {here m p q : Place} {n piece : List Char}
  {ps rest : List (List Char)} {e : Entry} {spot : Spot}

/-! ## What stands after a change -/

theorem get?_put_nil (t : FileTree) (e : Entry) : (t.put [] e).get? p = t.get? p := by
  unfold get? put
  by_cases hp : p = []
  · rw [if_pos hp, if_pos hp]
  · rw [if_neg hp, if_neg hp]
    exact if_neg hp

theorem get?_put_of_ne (h : p ≠ q) : (t.put q e).get? p = t.get? p := by
  by_cases hq : q = []
  · rw [hq, get?_put_nil]
  · rw [get?_put hq, if_neg h]

theorem get?_put_self (hq : q ≠ []) : (t.put q e).get? q = some e := by
  rw [get?_put hq, if_pos rfl]

theorem get?_prune_below (hq : q ≠ []) (h : q <+: p) : (t.prune q).get? p = none := by
  have hp : p ≠ [] := fun hp => hq (List.prefix_nil.mp (hp ▸ h))
  unfold get? prune
  rw [if_neg hp]
  exact if_pos (List.isPrefixOf_iff_prefix.mpr h)

theorem get?_prune_elsewhere (h : ¬ q <+: p) : (t.prune q).get? p = t.get? p := by
  unfold get? prune
  split
  · rfl
  · exact if_neg fun hp => h (List.isPrefixOf_iff_prefix.mp hp)

theorem get?_nil (t : FileTree) : t.get? [] = some .directory := if_pos rfl

theorem ne_nil_of_get? (h : t.get? q ≠ some .directory) : q ≠ [] := by
  rintro rfl
  exact h t.get?_nil

/-! ## Places that are reached -/

/-- A place that can be walked to from the root and walked through. -/
structure Reaches (t : FileTree) (p : Place) : Prop where
  names : ∀ n ∈ p, IsName n
  directories : ∀ q, q <+: p → t.get? q = some .directory

namespace Reaches

theorem nil (t : FileTree) : t.Reaches [] where
  names := List.forall_mem_nil _
  directories q hq := by
    rw [List.prefix_nil.mp hq]
    exact t.get?_nil

theorem of_above (h : t.Reaches p) (hq : q <+: p) : t.Reaches q where
  names n hn := h.names n (hq.subset hn)
  directories r hr := h.directories r (hr.trans hq)

theorem directory (h : t.Reaches p) : t.get? p = some .directory :=
  h.directories p (List.prefix_refl p)

theorem dropLast (h : t.Reaches p) : t.Reaches p.dropLast := h.of_above (List.dropLast_prefix p)

theorem concat (h : t.Reaches p) (hn : IsName n) (hd : t.get? (p ++ [n]) = some .directory) :
    t.Reaches (p ++ [n]) where
  names k hk := by
    rcases List.mem_append.mp hk with hk | hk
    · exact h.names k hk
    · rwa [List.mem_singleton.mp hk]
  directories q hq := by
    rcases List.prefix_concat_iff.mp hq with rfl | hq
    · exact hd
    · exact h.directories q hq

end Reaches

/-- Directories that are reached stay so. -/
structure DirectoriesStay (t t' : FileTree) : Prop where
  home : t'.home = t.home
  reaches : ∀ {p : Place}, t.Reaches p → t'.Reaches p

namespace DirectoriesStay

theorem refl (t : FileTree) : t.DirectoriesStay t := ⟨rfl, id⟩

theorem trans (h : t.DirectoriesStay t') (h' : t'.DirectoriesStay t'') : t.DirectoriesStay t'' :=
  ⟨h'.home.trans h.home, fun hp => h'.reaches (h.reaches hp)⟩

theorem of_get? (hhome : t'.home = t.home)
    (h : ∀ p, t.Reaches p → t'.get? p = some .directory) : t.DirectoriesStay t' where
  home := hhome
  reaches hp := ⟨hp.names, fun q hq => h q (hp.of_above hq)⟩

/-- Nothing is put in the place of a directory but a directory. -/
theorem put (h : t.get? q = some .directory → e = .directory) : t.DirectoriesStay (t.put q e) := by
  refine of_get? rfl fun p hp => ?_
  by_cases hpq : p = q
  · subst hpq
    rw [h hp.directory]
    by_cases hnil : p = []
    · rw [hnil]
      exact get?_nil _
    · exact get?_put_self hnil
  · rw [get?_put_of_ne hpq]
    exact hp.directory

/-- What is removed is no directory. -/
theorem prune (h : t.get? q ≠ some .directory) : t.DirectoriesStay (t.prune q) := by
  refine of_get? rfl fun p hp => ?_
  rw [get?_prune_elsewhere fun hq => h (hp.directories q hq)]
  exact hp.directory

end DirectoriesStay

/-! ## Walks through directories -/

/-- Pieces lead through directories from one to another. -/
inductive Leads (t : FileTree) : Place → List (List Char) → Place → Prop
  | here {p : Place} : t.get? p = some .directory → Leads t p [] p
  | idle {p m : Place} {piece : List Char} {rest : List (List Char)} :
      t.get? p = some .directory → isIdle piece = true → Leads t p rest m →
      Leads t p (piece :: rest) m
  | up {p m : Place} {rest : List (List Char)} :
      t.get? p = some .directory → Leads t p.dropLast rest m → Leads t p (['.', '.'] :: rest) m
  | into {p m : Place} {n : List Char} {rest : List (List Char)} :
      t.get? p = some .directory → IsName n → nameSize n ≤ 255 → Leads t (p ++ [n]) rest m →
      Leads t p (n :: rest) m

theorem walk_nil (h : t.get? here = some e) : t.walk here [] = .ok (.found here e) := by
  rw [walk, h]

theorem walk_idle (h : t.get? here = some .directory) (hpiece : isIdle piece = true) :
    t.walk here (piece :: rest) = t.walk here rest := by
  rw [walk, h]
  exact if_pos hpiece

theorem walk_up (h : t.get? here = some .directory) :
    t.walk here (['.', '.'] :: rest) = t.walk here.dropLast rest := by
  rw [walk, h]
  rfl

theorem walk_name (h : t.get? here = some .directory) (hidle : isIdle n = false)
    (hup : n ≠ ['.', '.']) :
    t.walk here (n :: rest) =
      if 255 < nameSize n then .error .nameTooLong
      else match t.get? (here ++ [n]) with
        | some _ => t.walk (here ++ [n]) rest
        | none =>
          if rest = [] then .ok (.vacant (here ++ [n]) false)
          else if rest.all List.isEmpty then .ok (.vacant (here ++ [n]) true)
          else .error .notFound := by
  rw [walk, h]
  dsimp only
  rw [hidle, if_neg Bool.false_ne_true, if_neg hup]
  rfl

/-- Only from a directory there is a way on. -/
theorem directory_of_walk (h : t.walk here (piece :: rest) = .ok spot) :
    t.get? here = some .directory := by
  rw [walk] at h
  split at h
  · assumption
  · cases h
  · cases h

namespace Leads

variable (h : t.Leads here ps m)

include h

theorem directory : t.get? here = some .directory := by
  cases h <;> assumption

theorem directory_end : t.get? m = some .directory := by
  induction h with
  | here h => exact h
  | idle _ _ _ ih => exact ih
  | up _ _ ih => exact ih
  | into _ _ _ _ ih => exact ih

/-- A walk may be taken up where pieces in front of it lead to. -/
theorem walk_append (rest : List (List Char)) : t.walk here (ps ++ rest) = t.walk m rest := by
  induction h with
  | here _ => rfl
  | idle hd hpiece _ ih => exact (walk_idle hd hpiece).trans ih
  | up hd _ ih => exact (walk_up hd).trans ih
  | into hd hn hsize hnext ih =>
    rw [List.cons_append, walk_name hd hn.active hn.notUp, if_neg (Nat.not_lt.mpr hsize), hnext.directory]
    exact ih

/-- A walk starts in a place that is reached and goes through such places. -/
theorem reaches (hhere : t.Reaches here) : t.Reaches m := by
  induction h with
  | here _ => exact hhere
  | idle _ _ _ ih => exact ih hhere
  | up _ _ ih => exact ih hhere.dropLast
  | into _ hn _ hnext ih => exact ih (hhere.concat hn hnext.directory)

/-- Where directories stay, pieces lead to where they led. -/
theorem stay (hhere : t.Reaches here) (hstay : t.DirectoriesStay t') : t'.Leads here ps m := by
  induction h with
  | here _ => exact .here (hstay.reaches hhere).directory
  | idle _ hpiece _ ih => exact .idle (hstay.reaches hhere).directory hpiece (ih hhere)
  | up _ _ ih => exact .up (hstay.reaches hhere).directory (ih hhere.dropLast)
  | into _ hn hsize hnext ih =>
    exact .into (hstay.reaches hhere).directory hn hsize (ih (hhere.concat hn hnext.directory))

/-- From where pieces lead to, a name leads on to the directory under it. -/
theorem concat (hn : IsName n) (hsize : nameSize n ≤ 255)
    (hd : t.get? (m ++ [n]) = some .directory) : t.Leads here (ps ++ [n]) (m ++ [n]) := by
  induction h with
  | here hdir => exact .into hdir hn hsize (.here hd)
  | idle hdir hpiece _ ih => exact .idle hdir hpiece (ih hd)
  | up hdir _ ih => exact .up hdir (ih hd)
  | into hdir hn' hsize' _ ih => exact .into hdir hn' hsize' (ih hd)

/-- Names lead to the place below. -/
theorem of_names (hps : ∀ n ∈ ps, IsName n) :
    m = here ++ ps ∧ (∀ n ∈ ps, nameSize n ≤ 255) ∧
      ∀ q, q <+: ps → t.get? (here ++ q) = some .directory := by
  induction h with
  | here h =>
    refine ⟨(List.append_nil _).symm, List.forall_mem_nil _, fun q hq => ?_⟩
    rw [List.prefix_nil.mp hq, List.append_nil]
    exact h
  | idle _ hpiece _ _ =>
    have hactive := (List.forall_mem_cons.mp hps).1.active
    rw [hpiece] at hactive
    cases hactive
  | up _ _ _ => exact absurd rfl (List.forall_mem_cons.mp hps).1.notUp
  | @into p m n rest hd _ hsize _ ih =>
    obtain ⟨hm, hsizes, hdirs⟩ := ih (List.forall_mem_cons.mp hps).2
    refine ⟨?_, List.forall_mem_cons.mpr ⟨hsize, hsizes⟩, fun q hq => ?_⟩
    · rw [hm, List.append_assoc]
      rfl
    · rcases List.prefix_cons_iff.mp hq with rfl | ⟨r, rfl, hr⟩
      · rw [List.append_nil]
        exact hd
      · have := hdirs r hr
        rwa [List.append_assoc] at this

end Leads

/-- Names lead from one place that is reached to another. -/
theorem leads_of_reaches (h : t.Reaches (here ++ ps)) (hsize : ∀ n ∈ ps, nameSize n ≤ 255) :
    t.Leads here ps (here ++ ps) := by
  induction ps generalizing here with
  | nil =>
    rw [List.append_nil] at h ⊢
    exact .here h.directory
  | cons n ps ih =>
    obtain ⟨hn, hps⟩ := List.forall_mem_cons.mp hsize
    rw [List.append_cons] at h ⊢
    refine .into (h.directories here ?_) (h.names n ?_) hn (ih h hps)
    · rw [List.append_assoc]
      exact List.prefix_append _ _
    · simp

/-- Pieces that are idle lead nowhere else. -/
theorem walk_idles (h : t.get? here = some .directory) (hps : ∀ piece ∈ ps, isIdle piece = true) :
    t.walk here ps = .ok (.found here .directory) := by
  induction ps with
  | nil => exact walk_nil h
  | cons piece ps ih =>
    obtain ⟨hpiece, hps⟩ := List.forall_mem_cons.mp hps
    rw [walk_idle h hpiece, ih hps]

/-- A walk that misses only the last name finds what is put there, if that is a directory. -/
theorem walk_put_of_vacant {slash : Bool} (h : t.walk here ps = .ok (.vacant q slash)) :
    t.get? q = none ∧ (t.put q .directory).walk here ps = .ok (.found q .directory) := by
  induction ps generalizing here with
  | nil =>
    rw [walk] at h
    split at h <;> cases h
  | cons piece ps ih =>
    have hd : t.get? here = some .directory := directory_of_walk h
    have hd' : t.get? q = none → (t.put q .directory).get? here = some .directory := by
      intro hq
      rwa [get?_put_of_ne]
      rintro rfl
      rw [hq] at hd
      cases hd
    by_cases hidle : isIdle piece = true
    · rw [walk_idle hd hidle] at h
      obtain ⟨hq, hfound⟩ := ih h
      exact ⟨hq, (walk_idle (hd' hq) hidle).trans hfound⟩
    by_cases hup : piece = ['.', '.']
    · subst hup
      rw [walk_up hd] at h
      obtain ⟨hq, hfound⟩ := ih h
      exact ⟨hq, (walk_up (hd' hq)).trans hfound⟩
    rw [Bool.not_eq_true] at hidle
    rw [walk_name hd hidle hup] at h
    split at h
    · cases h
    rename_i hsize
    split at h
    · -- the name is there, and it stays there as the walk goes on behind it
      rename_i e hnext
      obtain ⟨hq, hfound⟩ := ih h
      have hsome : ∃ e, (t.put q .directory).get? (here ++ [piece]) = some e := by
        refine ⟨e, ?_⟩
        rwa [get?_put_of_ne]
        rintro rfl
        rw [hq] at hnext
        cases hnext
      obtain ⟨e, he⟩ := hsome
      refine ⟨hq, ?_⟩
      rw [walk_name (hd' hq) hidle hup, if_neg hsize, he]
      exact hfound
    · -- the name is missing, and only slashes follow it
      rename_i hnext
      have hrest : (here ++ [piece] = q) ∧ ∀ piece ∈ ps, isIdle piece = true := by
        split at h
        · rename_i hnil
          cases h
          exact ⟨rfl, by rw [hnil]; exact List.forall_mem_nil _⟩
        split at h
        · rename_i hall
          cases h
          refine ⟨rfl, fun piece hpiece => ?_⟩
          rw [List.isEmpty_iff.mp (List.all_eq_true.mp hall piece hpiece)]
          rfl
        · cases h
      obtain ⟨rfl, hidles⟩ := hrest
      have hself := get?_put_self (t := t) (e := .directory) (q := here ++ [piece]) (by simp)
      refine ⟨hnext, ?_⟩
      rw [walk_name (hd' hnext) hidle hup, if_neg hsize, hself]
      exact walk_idles hself hidles

/-- A walk that ends with a name leads to a directory first. -/
theorem exists_leads (hps : ∀ piece ∈ ps, '/' ∉ piece) (hn : IsName n)
    (h : t.walk here (ps ++ [n]) = .ok spot) :
    ∃ m, t.Leads here ps m ∧ t.walk m [n] = .ok spot := by
  induction ps generalizing here with
  | nil => exact ⟨here, .here (directory_of_walk h), h⟩
  | cons piece ps ih =>
    obtain ⟨hpiece, hrest⟩ := List.forall_mem_cons.mp hps
    have hd : t.get? here = some .directory := directory_of_walk h
    rw [List.cons_append] at h
    by_cases hidle : isIdle piece = true
    · rw [walk_idle hd hidle] at h
      obtain ⟨m, hm, hwalk⟩ := ih hrest h
      exact ⟨m, .idle hd hidle hm, hwalk⟩
    by_cases hup : piece = ['.', '.']
    · subst hup
      rw [walk_up hd] at h
      obtain ⟨m, hm, hwalk⟩ := ih hrest h
      exact ⟨m, .up hd hm, hwalk⟩
    · have hname : IsName piece := ⟨hpiece, Bool.not_eq_true _ ▸ hidle, hup⟩
      rw [walk_name hd hname.active hname.notUp] at h
      split at h
      · cases h
      rename_i hsize
      split at h
      · obtain ⟨m, hm, hwalk⟩ := ih hrest h
        exact ⟨m, .into hd hname (Nat.not_lt.mp hsize) hm, hwalk⟩
      · -- what is missing has a name below it
        have hne : ¬ ps ++ [n] = [] := List.append_ne_nil_of_right_ne_nil _ (List.cons_ne_nil _ _)
        have hall : ¬ (ps ++ [n]).all List.isEmpty = true := by
          intro hall
          have hempty := List.all_eq_true.mp hall n (by simp)
          have hactive := hn.active
          rw [List.isEmpty_iff.mp hempty] at hactive
          cases hactive
        rw [if_neg hne, if_neg hall] at h
        cases h

/-- What a path with a last piece finds in the directory before it. -/
def spotAt (t : FileTree) (p : Place) : Spot :=
  match t.get? p with
  | some e => .found p e
  | none => .vacant p false

theorem walk_single (hd : t.get? m = some .directory) (hn : IsName n) :
    t.walk m [n] = if 255 < nameSize n then .error .nameTooLong else .ok (t.spotAt (m ++ [n])) := by
  rw [walk_name hd hn.active hn.notUp]
  unfold spotAt
  cases h : t.get? (m ++ [n]) with
  | none => rfl
  | some e =>
    dsimp only
    rw [walk_nil h]

/-- A walk that ends with a name. -/
theorem walk_concat_eq_ok_iff (hps : ∀ piece ∈ ps, '/' ∉ piece) (hn : IsName n) :
    t.walk here (ps ++ [n]) = .ok spot ↔
      nameSize n ≤ 255 ∧ ∃ m, t.Leads here ps m ∧ t.spotAt (m ++ [n]) = spot := by
  constructor
  · intro h
    obtain ⟨m, hm, hwalk⟩ := exists_leads hps hn h
    rw [walk_single hm.directory_end hn] at hwalk
    split at hwalk
    · cases hwalk
    · rename_i hsize
      exact ⟨Nat.not_lt.mp hsize, m, hm, Except.ok.inj hwalk⟩
  · rintro ⟨hsize, m, hm, hspot⟩
    rw [hm.walk_append, walk_single hm.directory_end hn, if_neg (Nat.not_lt.mpr hsize), hspot]

/-! ## Paths -/

/-- Where a path starts from. -/
def start (t : FileTree) (p : Path) : Place := if p.isAbsolute then [] else t.home

theorem reaches_start (h : t.Reaches t.home) (p : Path) : t.Reaches (t.start p) := by
  unfold start
  split
  · exact .nil t
  · exact h

theorem locate_eq_ok_iff {p : Path} :
    t.locate p = .ok spot ↔ p.Valid ∧ t.walk (t.start p) (Path.cut p.chars) = .ok spot := by
  unfold locate
  constructor
  · intro h
    split at h
    · cases h
    split at h
    · cases h
    split at h
    · cases h
    · rename_i hne hzero hlong
      exact ⟨⟨hne, Bool.not_eq_true _ ▸ hzero, Nat.not_le.mp hlong⟩, h⟩
  · rintro ⟨⟨hne, hzero, hshort⟩, h⟩
    rw [if_neg hne, hzero, if_neg Bool.false_ne_true, if_neg (Nat.not_le.mpr hshort)]
    exact h

/-- A path whose last piece is a name leads to a directory and to what stands there under the name. -/
theorem locate_name_eq_ok_iff {p : Path} (hcut : Path.cut p.chars = ps ++ [n]) (hn : IsName n) :
    t.locate p = .ok spot ↔
      (p.Valid ∧ nameSize n ≤ 255) ∧
        ∃ m, t.Leads (t.start p) ps m ∧ t.spotAt (m ++ [n]) = spot := by
  have hps : ∀ piece ∈ ps, '/' ∉ piece := fun piece hpiece =>
    Path.not_mem_of_mem_cut (hcut ▸ List.mem_append_left [n] hpiece)
  rw [locate_eq_ok_iff, hcut, walk_concat_eq_ok_iff hps hn, and_assoc]

theorem cut_path (h : ∀ n ∈ q, IsName n) (hq : q ≠ []) :
    Path.cut (Place.path q).chars = [] :: q :=
  (Path.cut_slash _).trans
    (congrArg ([] :: ·) (Path.cut_paste hq fun n hn => (h n hn).noSlash))

/-- The path of a place leads there, if directories do. -/
theorem locate_path_eq_ok_iff (h : ∀ k ∈ m ++ [n], IsName k) :
    t.locate (Place.path (m ++ [n])) = .ok spot ↔
      ((Place.path (m ++ [n])).Valid ∧ ∀ k ∈ m ++ [n], nameSize k ≤ 255) ∧ t.Reaches m ∧
        t.spotAt (m ++ [n]) = spot := by
  have hn : IsName n := h n (by simp)
  have hm : ∀ k ∈ m, IsName k := fun k hk => h k (List.mem_append_left _ hk)
  have hcut : Path.cut (Place.path (m ++ [n])).chars = ([] :: m) ++ [n] :=
    cut_path h (List.append_ne_nil_of_right_ne_nil _ (List.cons_ne_nil _ _))
  have hleads : ∀ r, t.Leads [] ([] :: m) r ↔
      r = m ∧ t.Reaches m ∧ ∀ k ∈ m, nameSize k ≤ 255 := by
    intro r
    constructor
    · rintro (_ | ⟨_, _, hlead⟩ | _ | ⟨_, hnil, _, _⟩)
      · obtain ⟨hr, hsizes, hdirs⟩ := hlead.of_names hm
        exact ⟨hr, ⟨hm, hdirs⟩, hsizes⟩
      · exact absurd hnil.active (by decide)
    · rintro ⟨rfl, hreach, hsizes⟩
      exact .idle t.get?_nil rfl (leads_of_reaches hreach hsizes)
  rw [locate_name_eq_ok_iff hcut hn, show t.start (Place.path (m ++ [n])) = [] from rfl]
  simp only [hleads, List.forall_mem_append, List.forall_mem_singleton]
  constructor
  · rintro ⟨⟨hvalid, hsize⟩, r, ⟨rfl, hreach, hsizes⟩, hspot⟩
    exact ⟨⟨hvalid, hsizes, hsize⟩, hreach, hspot⟩
  · rintro ⟨⟨hvalid, hsizes, hsize⟩, hreach, hspot⟩
    exact ⟨⟨hvalid, hsize⟩, m, ⟨rfl, hreach, hsizes⟩, hspot⟩

end FileTree
end SliceRecovery
