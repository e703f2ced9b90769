import SliceRecovery.Project.Setup
import SliceRecovery.Proofs.StorePlaces
import SliceRecovery.Proofs.Versions

/-!
# SliceRecovery.Proofs.StoreFiles -- stores that are opened in a tree of files

Opening a store takes up what stands beside its file and saves the store if it was brought up to date.
All of this only touches the file and the two places beside it (`Touched`); directories, and files that
stand anywhere else, stay. What was opened stands in the file afterwards and is opened again without
a further change (`openStore_again`), and a store that stood there is kept, whether the opening
succeeds or not (`openStore_keeps`).
-/

namespace SliceRecovery

namespace FileTree

open SliceRecovery.Path (IsName nameSize)

variable {t t' t1 : FileTree} {q r s : Place} {e : Entry} {p p' : Path} {must isEmpty : Bool}
  {n : List Char}

/-! ## Places beside a store -/

theorem length_beside (q : Place) (ending : String) :
    (beside q ending).length = q.dropLast.length + 1 := by
  rw [beside, List.length_append, List.length_singleton]

/-- A place beside a store is at the store's level, so that nothing at that level is below it. -/
theorem eq_of_beside_above {ending : String} (h : beside q ending <+: r)
    (hr : r.length ≤ q.dropLast.length + 1) : beside q ending = r :=
  h.eq_of_length_le (by rw [length_beside]; exact hr)

theorem length_le_beside (q : Place) : q.length ≤ q.dropLast.length + 1 := by
  rw [List.length_dropLast]
  omega

theorem getLast?_beside (q : Place) (ending : String) :
    (beside q ending).getLast? = some ((q.getLast?.getD []) ++ ending.toList) :=
  List.getLast?_concat

theorem beside_ne {ending : String} (h : ending.toList ≠ []) : beside q ending ≠ q := by
  intro heq
  have hlast := getLast?_beside q ending
  rw [heq] at hlast
  cases hq : q.getLast? with
  | none =>
    rw [hq] at hlast
    cases hlast
  | some n =>
    rw [hq, Option.getD_some, Option.some.injEq] at hlast
    exact h (List.self_eq_append_right.mp hlast)

theorem journal_ne : journal q ≠ q := beside_ne (by decide)

theorem log_ne : log q ≠ q := beside_ne (by decide)

theorem log_ne_journal : log q ≠ journal q := by
  intro heq
  have hlast := congrArg List.getLast? heq
  rw [log, journal, getLast?_beside, getLast?_beside, Option.some.injEq] at hlast
  exact absurd (List.append_cancel_left hlast) (by decide)

/-- A place whose files are touched together with a store. -/
def Beside (q s : Place) : Prop := s = journal q ∨ s = log q

namespace Beside

variable (h : Beside q s)

include h

theorem ne : s ≠ q := by
  rcases h with rfl | rfl
  · exact journal_ne
  · exact log_ne

theorem ne_nil : s ≠ [] := by
  rcases h with rfl | rfl <;> exact List.append_ne_nil_of_right_ne_nil _ (List.cons_ne_nil _ _)

theorem eq_of_above (hr : s <+: r) (hlength : r.length ≤ q.dropLast.length + 1) : s = r := by
  rcases h with rfl | rfl <;> exact eq_of_beside_above hr hlength

theorem not_above : ¬ s <+: q := fun hq => h.ne (h.eq_of_above hq (length_le_beside q))

end Beside

theorem get?_prune_log : (t.prune (log q)).get? (journal q) = t.get? (journal q) := by
  refine get?_prune_elsewhere fun h => log_ne_journal (q := q) ?_
  exact eq_of_beside_above h (Nat.le_of_eq (length_beside _ _))

theorem get?_prune_journal : (t.prune (journal q)).get? (log q) = t.get? (log q) := by
  refine get?_prune_elsewhere fun h => (log_ne_journal (q := q)).symm ?_
  exact eq_of_beside_above h (Nat.le_of_eq (length_beside _ _))

/-! ## What opening and saving touch -/

/-- The changes that opening and saving the store at a place make. -/
inductive Touched (q : Place) (t : FileTree) : FileTree → Prop
  | refl : Touched q t t
  | clear {t' : FileTree} {s : Place} :
      Touched q t t' → Beside q s → t'.get? s ≠ some .directory → Touched q t (t'.prune s)
  | fill {t' : FileTree} {e : Entry} :
      Touched q t t' → t'.get? q ≠ some .directory → e.kind = .file → Touched q t (t'.put q e)

namespace Touched

variable (h : Touched q t t')

include h

theorem trans {t'' : FileTree} (h' : Touched q t' t'') : Touched q t t'' := by
  induction h' with
  | refl => exact h
  | clear _ hs hd ih => exact ih.clear hs hd
  | fill _ hd he ih => exact ih.fill hd he

/-- Directories stay. -/
theorem stay : t.DirectoriesStay t' := by
  induction h with
  | refl => exact .refl t
  | clear _ _ hd ih => exact ih.trans (.prune hd)
  | fill _ hd _ ih => exact ih.trans (.put fun hq => absurd hq hd)

/-- What stands elsewhere in a directory stays. -/
theorem get?_eq (hr : t.Reaches r.dropLast) (hq : r ≠ q) (hs : ∀ s, Beside q s → s ≠ r) :
    t'.get? r = t.get? r := by
  induction h with
  | refl => rfl
  | @clear t1 s h1 hb hd ih =>
    rw [get?_prune_elsewhere, ih]
    intro habove
    -- what is removed is no directory, so it is not on the way
    rcases r.eq_nil_or_concat with rfl | ⟨d, n, rfl⟩
    · exact hs s hb (List.prefix_nil.mp habove)
    · rw [List.concat_eq_append] at habove
      rcases List.prefix_concat_iff.mp habove with heq | habove
      · exact hs s hb (by rw [heq, List.concat_eq_append])
      · rw [List.concat_eq_append, List.dropLast_concat] at hr
        exact hd ((h1.stay.reaches hr).directories s habove)
  | fill _ _ _ ih => rw [get?_put_of_ne hq, ih]

/-- Where a file stands in the place of the store, the tree loses entries only. -/
theorem thins (hfile : (t.get? q).map Entry.kind = some .file) :
    t.Thins t' ∧ (t'.get? q).map Entry.kind = some .file := by
  induction h with
  | refl => exact ⟨.refl t, hfile⟩
  | clear _ hb _ ih =>
    refine ⟨ih.1.trans (.prune hb.ne_nil), ?_⟩
    rw [get?_prune_elsewhere hb.not_above]
    exact ih.2
  | fill _ hd he ih =>
    obtain ⟨e', he', hkind⟩ := Option.map_eq_some_iff.mp ih.2
    refine ⟨ih.1.trans (.put he' (he.trans hkind.symm)), ?_⟩
    rw [get?_put_self (ne_nil_of_get? hd)]
    exact congrArg some he

end Touched

/-! ## Files that are taken up -/

/-- Nothing beside a store is left to take up. -/
structure Settled (t : FileTree) (q : Place) : Prop where
  journal : t.get? (journal q) ≠ some .directory
  finished : ∀ b bs, t.get? (FileTree.journal q) = some (.file (b :: bs)) → b = 0
  log : t.get? (log q) ≠ some .directory
  empty : ∀ b bs, t.get? (FileTree.log q) ≠ some (.file (b :: bs))

theorem Settled.takeJournal (h : t.Settled q) : t.takeJournal q false = .ok t := by
  unfold FileTree.takeJournal
  split
  · rename_i hdir
    exact absurd hdir h.journal
  · rename_i b bs hfile
    rw [h.finished b bs hfile]
    rfl
  · rfl

theorem Settled.takeLog (h : t.Settled q) : t.takeLog q false = .ok t := by
  unfold FileTree.takeLog
  split
  · rename_i hdir
    exact absurd hdir h.log
  · rename_i b bs hfile
    exact absurd hfile (h.empty b bs)
  · rfl

/-- A store beside which nothing is left to take up is opened as it is. -/
theorem Settled.openAt (h : t.Settled q) (s : Store) : t.openAt q (.store s) = .ok (s, t) := by
  unfold FileTree.openAt
  dsimp only
  rw [h.takeJournal]
  dsimp only [bind, Except.bind]
  rw [h.takeLog]
  rfl

/-- What taking up the journal comes to: it is left alone, as it counts for nothing or is not there, or
it goes. -/
theorem takeJournal_cases (h : t.takeJournal q isEmpty = .ok t') :
    (t' = t ∧ (isEmpty = false → t.get? (journal q) ≠ some .directory) ∧
        ∀ b bs, t.get? (journal q) = some (.file (b :: bs)) → b = 0) ∨
      (t' = t.prune (journal q) ∧ t.get? (journal q) ≠ some .directory) := by
  unfold takeJournal at h
  split at h
  · rename_i hdir
    split at h
    · rename_i hempty
      cases h
      refine Or.inl ⟨rfl, fun hno => ?_, fun b bs hfile => ?_⟩
      · rw [hno] at hempty
        cases hempty
      · rw [hdir] at hfile
        cases hfile
    · cases h
  · rename_i b bs hfile
    have hnot : t.get? (journal q) ≠ some .directory := by
      rw [hfile]
      exact nofun
    split at h
    · cases h
      exact Or.inr ⟨rfl, hnot⟩
    · rename_i hkept
      cases h
      refine Or.inl ⟨rfl, fun _ => hnot, fun b' bs' hfile' => ?_⟩
      rw [hfile] at hfile'
      cases hfile'
      have hkept : isEmpty = false ∧ b = 0 := by simpa using hkept
      exact hkept.2
  · rename_i hother hnofile
    cases h
    exact Or.inl ⟨rfl, fun _ => hother, fun b bs hfile => absurd hfile (hnofile b bs)⟩

/-- What taking up the log comes to: there is none with anything in it, or it goes. -/
theorem takeLog_cases (h : t.takeLog q isEmpty = .ok t') :
    (t' = t ∧ t.get? (log q) ≠ some .directory ∧
        ∀ b bs, t.get? (log q) ≠ some (.file (b :: bs))) ∨
      (t' = t.prune (log q) ∧ t.get? (log q) ≠ some .directory) := by
  unfold takeLog at h
  split at h
  · cases h
  · rename_i b bs hfile
    cases h
    refine Or.inr ⟨rfl, ?_⟩
    rw [hfile]
    exact nofun
  · rename_i hother hnofile
    cases h
    exact Or.inl ⟨rfl, hother, hnofile⟩

theorem get?_prune_self (h : Beside q s) : (t.prune s).get? s = none :=
  get?_prune_below h.ne_nil (List.prefix_refl _)

theorem takeJournal_eq_ok (h : t.takeJournal q isEmpty = .ok t') :
    Touched q t t' ∧ (isEmpty = false → t'.get? (journal q) ≠ some .directory) ∧
      ∀ b bs, t'.get? (journal q) = some (.file (b :: bs)) → b = 0 := by
  rcases takeJournal_cases h with ⟨rfl, hdir, hfile⟩ | ⟨rfl, hdir⟩
  · exact ⟨.refl, hdir, hfile⟩
  · rw [get?_prune_self (Or.inl rfl)]
    exact ⟨.clear .refl (Or.inl rfl) hdir, fun _ => nofun, nofun⟩

theorem takeLog_eq_ok (h : t.takeLog q isEmpty = .ok t') :
    Touched q t t' ∧ t'.get? (log q) ≠ some .directory ∧
      (∀ b bs, t'.get? (log q) ≠ some (.file (b :: bs))) ∧
      t'.get? (journal q) = t.get? (journal q) := by
  rcases takeLog_cases h with ⟨rfl, hdir, hfile⟩ | ⟨rfl, hdir⟩
  · exact ⟨.refl, hdir, hfile, rfl⟩
  · rw [get?_prune_self (Or.inr rfl)]
    exact ⟨.clear .refl (Or.inr rfl) hdir, nofun, nofun, get?_prune_log⟩

/-- The store itself is left alone when files beside it are taken up. -/
theorem get?_of_takeJournal (h : t.takeJournal q isEmpty = .ok t') : t'.get? q = t.get? q := by
  rcases takeJournal_cases h with ⟨rfl, -⟩ | ⟨rfl, -⟩
  · rfl
  · exact get?_prune_elsewhere (Beside.not_above (Or.inl rfl))

theorem get?_of_takeLog (h : t.takeLog q isEmpty = .ok t') : t'.get? q = t.get? q := by
  rcases takeLog_cases h with ⟨rfl, -⟩ | ⟨rfl, -⟩
  · rfl
  · exact get?_prune_elsewhere (Beside.not_above (Or.inr rfl))

/-- A file that is opened as a store holds one or has at most one byte. -/
theorem store?_file {bytes : List UInt8} {s : Store} (h : Entry.store? (.file bytes) = some s) :
    bytes.length ≤ 1 ∧ s = {} := by
  match bytes, h with
  | [], h => exact ⟨Nat.zero_le 1, (Option.some.inj h).symm⟩
  | [_], h => exact ⟨Nat.le_refl 1, (Option.some.inj h).symm⟩

/-- What opening the file at a place comes to if it succeeds. -/
structure Opened (t : FileTree) (q : Place) (e : Entry) (s : Store) (t' : FileTree) : Prop where
  store : Entry.store? e = some s
  touched : Touched q t t'
  settled : t'.Settled q
  same : t'.get? q = t.get? q

theorem exists_openAt_eq (t : FileTree) (q : Place) (e : Entry) :
    ∃ isEmpty, t.openAt q e = (do
      let t ← t.takeJournal q isEmpty
      let t ← t.takeLog q isEmpty
      match Entry.store? e with
      | none => .error .notAStore
      | some s => if isEmpty && !t.canPrepare q then .error .cannotPrepare else .ok (s, t)) :=
  ⟨_, rfl⟩

theorem openAt_eq_ok {s : Store} (h : t.openAt q e = .ok (s, t')) : t.Opened q e s t' := by
  obtain ⟨isEmpty, heq⟩ := t.exists_openAt_eq q e
  rw [heq] at h
  cases hjournal : t.takeJournal q isEmpty with
  | error e =>
    rw [hjournal] at h
    cases h
  | ok t1 =>
    rw [hjournal] at h
    dsimp only [bind, Except.bind] at h
    cases hlog : t1.takeLog q isEmpty with
    | error e =>
      rw [hlog] at h
      cases h
    | ok t2 =>
      rw [hlog] at h
      dsimp only at h
      obtain ⟨htouched1, hkept, hfinished⟩ := takeJournal_eq_ok hjournal
      obtain ⟨htouched2, hlogdir, hlogfile, hsame⟩ := takeLog_eq_ok hlog
      split at h
      · cases h
      · rename_i s' hstore
        split at h
        · cases h
        · rename_i hprepare
          cases h
          refine ⟨hstore, htouched1.trans htouched2, ⟨?_, ?_, hlogdir, hlogfile⟩,
            (get?_of_takeLog hlog).trans (get?_of_takeJournal hjournal)⟩
          · -- an empty store is to be changed, for which a journal has to be made
            cases hempty : isEmpty with
            | false =>
              rw [hsame]
              exact hkept hempty
            | true =>
              intro hdir
              rw [hempty] at hprepare
              simp [canPrepare, hdir] at hprepare
          · rw [hsame]
            exact hfinished

theorem exists_takeJournal_iff :
    (∃ t', t.takeJournal q false = .ok t') ↔ t.get? (journal q) ≠ some .directory := by
  unfold takeJournal
  split
  · rename_i hdir
    exact ⟨nofun, fun h => absurd hdir h⟩
  · rename_i hfile
    rw [hfile]
    exact ⟨fun _ => nofun, fun _ => ⟨_, rfl⟩⟩
  · rename_i hdir _
    exact ⟨fun _ => hdir, fun _ => ⟨_, rfl⟩⟩

theorem exists_takeLog_iff (isEmpty : Bool) :
    (∃ t', t.takeLog q isEmpty = .ok t') ↔ t.get? (log q) ≠ some .directory := by
  unfold takeLog
  split
  · rename_i hdir
    exact ⟨nofun, fun h => absurd hdir h⟩
  · rename_i hfile
    rw [hfile]
    exact ⟨fun _ => nofun, fun _ => ⟨_, rfl⟩⟩
  · rename_i hdir _
    exact ⟨fun _ => hdir, fun _ => ⟨_, rfl⟩⟩

theorem get?_log_of_takeJournal (h : t.takeJournal q isEmpty = .ok t') :
    t'.get? (log q) = t.get? (log q) := by
  rcases takeJournal_cases h with ⟨rfl, -⟩ | ⟨rfl, -⟩
  · rfl
  · exact get?_prune_journal

/-- A store can be opened unless a directory is in the place of a file beside it. -/
theorem exists_openAt_store_iff {s : Store} :
    (∃ t', t.openAt q (.store s) = .ok (s, t')) ↔
      t.get? (journal q) ≠ some .directory ∧ t.get? (log q) ≠ some .directory := by
  have hopen : t.openAt q (.store s) = (do
      let t ← t.takeJournal q false
      let t ← t.takeLog q false
      .ok (s, t)) := rfl
  rw [hopen, ← exists_takeJournal_iff]
  cases hjournal : t.takeJournal q false with
  | error e =>
    refine ⟨nofun, ?_⟩
    rintro ⟨⟨t', h⟩, -⟩
    cases h
  | ok t1 =>
    rw [← get?_log_of_takeJournal hjournal, ← exists_takeLog_iff false]
    show (∃ t', (do let t ← t1.takeLog q false; .ok (s, t)) = Except.ok (s, t')) ↔ _
    cases hlog : t1.takeLog q false with
    | error e =>
      refine ⟨nofun, ?_⟩
      rintro ⟨-, t', h⟩
      cases h
    | ok t2 => exact ⟨fun _ => ⟨⟨t1, rfl⟩, ⟨t2, rfl⟩⟩, fun _ => ⟨t2, rfl⟩⟩

/-! ## Places for files -/

/-- A place that a path leads to whatever stands there: directories lead there, and its path is short
enough. -/
structure Housed (t : FileTree) (q : Place) : Prop where
  nonempty : q ≠ []
  names : ∀ n ∈ q, IsName n
  sizes : ∀ n ∈ q, nameSize n ≤ 255
  valid : (Place.path q).Valid
  above : t.Reaches q.dropLast

/-- A place below a reached directory is one if its path is short and free of zeros. -/
theorem housed_of_reaches (h : t.Reaches q.dropLast) (hne : q ≠ []) (hnames : ∀ n ∈ q, IsName n)
    (hproper : ∀ n ∈ q, nameSize n ≤ 255 ∧ '\x00' ∉ n) (hshort : pathSize q ≤ storeLimit) :
    t.Housed q where
  nonempty := hne
  names := hnames
  sizes n hn := (hproper n hn).1
  valid := by
    refine ⟨List.cons_ne_nil _ _, ?_, Nat.lt_of_le_of_lt hshort (by decide)⟩
    rw [List.contains_eq_mem, decide_eq_false_iff_not, Place.path, List.mem_cons, not_or]
    refine ⟨by decide, fun hzero => ?_⟩
    obtain hslash | ⟨n, hn, hmem⟩ := Path.mem_paste hzero
    · exact absurd hslash (by decide)
    · exact (hproper n hn).2 hmem
  above := h

theorem Housed.stay (h : t.Housed q) (hstay : t.DirectoriesStay t') : t'.Housed q :=
  { h with above := hstay.reaches h.above }

theorem Housed.locate (h : t.Housed q) : t.locate (Place.path q) = .ok (t.spotAt q) := by
  obtain ⟨hne, hnames, hsizes, hvalid, habove⟩ := h
  obtain ⟨m, n, rfl⟩ := (List.eq_nil_or_concat q).resolve_left hne
  rw [List.concat_eq_append] at *
  rw [List.dropLast_concat] at habove
  exact (locate_path_eq_ok_iff hnames).mpr ⟨⟨hvalid, hsizes⟩, habove, rfl⟩

theorem housed_of_locate {spot : Spot} (hnames : ∀ n ∈ q, IsName n) (hne : q ≠ [])
    (h : t.locate (Place.path q) = .ok spot) : t.Housed q ∧ t.spotAt q = spot := by
  obtain ⟨m, n, rfl⟩ := (List.eq_nil_or_concat q).resolve_left hne
  rw [List.concat_eq_append] at *
  obtain ⟨⟨hvalid, hsizes⟩, habove, hspot⟩ := (locate_path_eq_ok_iff hnames).mp h
  exact ⟨⟨hne, hnames, hsizes, hvalid, by rwa [List.dropLast_concat]⟩, hspot⟩

theorem spotAt_of_some (h : t.get? q = some e) : t.spotAt q = .found q e := by
  rw [spotAt, h]

theorem get?_of_spotAt_found (h : t.spotAt q = .found r e) : t.get? q = some e := by
  unfold spotAt at h
  split at h
  · cases h
    assumption
  · cases h

theorem get?_of_spotAt_vacant {slash : Bool} (h : t.spotAt q = .vacant r slash) :
    t.get? q = none := by
  unfold spotAt at h
  split at h
  · cases h
  · assumption

theorem locate_root : t.locate (Place.path []) = .ok (.found [] .directory) := by
  have hvalid : (Place.path []).Valid := ⟨by decide, by decide, by decide +kernel⟩
  refine locate_eq_ok_iff.mpr ⟨hvalid, walk_idles t.get?_nil ?_⟩
  decide

/-! ## Opening -/

/-- What the opening of a store in a file comes to on the way: the file that is opened, and the tree
in which it is, which may have been made. -/
inductive Found (t : FileTree) (q : Place) : Entry → FileTree → Prop
  | there {e : Entry} : t.get? q = some e → e ≠ .directory → Found t q e t
  | made : t.get? q = none → Found t q (.file []) (t.put q (.file []))

theorem Found.touched (h : t.Found q e t1) : Touched q t t1 := by
  cases h with
  | there _ _ => exact .refl
  | made hnone => exact .fill .refl (by rw [hnone]; exact nofun) rfl

/-- A store in a file is opened where its path leads to. -/
theorem openStore_of_found {e : Entry} (hread : StorePath.read p = .ok (.file p' must))
    (hplace : t.storePlace? p' = some q) (hq : t.Housed q) (he : t.get? q = some e)
    (hdir : e ≠ .directory) :
    t.openStore p =
      match t.openAt q e with
      | .ok (s, t) => (.ok s, t)
      | .error error => (.error error, t) := by
  unfold openStore
  rw [hread]
  dsimp only
  rw [hplace]
  dsimp only
  rw [hq.locate, spotAt_of_some he]
  cases e with
  | directory => exact absurd rfl hdir
  | file => rfl
  | store => rfl

/-- What opening a store comes to. -/
theorem openStore_cases (hhome : ∀ n ∈ t.home, IsName n)
    (hread : StorePath.read p = .ok (.file p' must)) :
    (∃ error, t.openStore p = (.error error, t)) ∨
      ∃ q e t1, t.storePlace? p' = some q ∧ t.Housed q ∧ t.Found q e t1 ∧
        t.openStore p =
          match t1.openAt q e with
          | .ok (s, t) => (.ok s, t)
          | .error error => (.error error, t1) := by
  unfold openStore
  rw [hread]
  dsimp only
  cases hplace : t.storePlace? p' with
  | none => exact Or.inl ⟨_, rfl⟩
  | some q =>
    dsimp only
    have hnames := names_of_storePlace? hhome hplace
    by_cases hne : q = []
    · subst hne
      rw [locate_root]
      exact Or.inl ⟨_, rfl⟩
    cases hlocate : t.locate (Place.path q) with
    | error fault => exact Or.inl ⟨_, rfl⟩
    | ok spot =>
      obtain ⟨hq, hspot⟩ := housed_of_locate hnames hne hlocate
      cases spot with
      | found r e =>
        have he := get?_of_spotAt_found hspot
        cases e with
        | directory => exact Or.inl ⟨_, rfl⟩
        | file bytes => exact Or.inr ⟨q, _, t, rfl, hq, .there he nofun, rfl⟩
        | store s => exact Or.inr ⟨q, _, t, rfl, hq, .there he nofun, rfl⟩
      | vacant r slash =>
        have hnone := get?_of_spotAt_vacant hspot
        cases must with
        | true => exact Or.inl ⟨_, rfl⟩
        | false => exact Or.inr ⟨q, _, _, rfl, hq, .made hnone, rfl⟩

theorem opened_of_openStore {s : Store} (hhome : ∀ n ∈ t.home, IsName n)
    (hread : StorePath.read p = .ok (.file p' must)) (h : t.openStore p = (.ok s, t')) :
    ∃ q e t1, t.storePlace? p' = some q ∧ t.Housed q ∧ t.Found q e t1 ∧ t1.Opened q e s t' := by
  rcases openStore_cases hhome hread with ⟨error, hopen⟩ | ⟨q, e, t1, hplace, hq, hfound, hopen⟩
  · rw [hopen] at h
    cases h
  · rw [hopen] at h
    cases hat : t1.openAt q e with
    | error error =>
      rw [hat] at h
      cases h
    | ok result =>
      rw [hat] at h
      cases h
      exact ⟨q, e, t1, hplace, hq, hfound, openAt_eq_ok hat⟩

/-- An opening that is refused makes an empty file at most. -/
theorem touched_of_openStore_error {error : StoreError} (hhome : ∀ n ∈ t.home, IsName n)
    (hread : StorePath.read p = .ok (.file p' must)) (h : t.openStore p = (.error error, t')) :
    t' = t ∨ ∃ q, t.storePlace? p' = some q ∧ t.get? q = none ∧ t' = t.put q (.file []) := by
  rcases openStore_cases hhome hread with ⟨error, hopen⟩ | ⟨q, e, t1, hplace, hq, hfound, hopen⟩
  · rw [hopen] at h
    cases h
    exact Or.inl rfl
  · rw [hopen] at h
    cases hat : t1.openAt q e with
    | ok result =>
      rw [hat] at h
      cases h
    | error error =>
      rw [hat] at h
      cases h
      cases hfound with
      | there _ _ => exact Or.inl rfl
      | made hnone => exact Or.inr ⟨q, hplace, hnone, rfl⟩

/-- A file that was just made is opened as a store if nothing stands beside it. -/
theorem openAt_empty (hjournal : t.get? (journal q) = none) (hlog : t.get? (log q) = none)
    (hname : isUnnameable (journal q) = false) : t.openAt q (.file []) = .ok ({}, t) := by
  have htakeJournal : ∀ isEmpty, t.takeJournal q isEmpty = .ok t := fun isEmpty => by
    rw [takeJournal, hjournal]
  have htakeLog : ∀ isEmpty, t.takeLog q isEmpty = .ok t := fun isEmpty => by
    rw [takeLog, hlog]
  have hprepare : t.canPrepare q = true := by
    rw [canPrepare, hname, hjournal]
    rfl
  simp [openAt, htakeJournal, htakeLog, hprepare, bind, Except.bind, Entry.store?]

/-- Where nothing stands, a store can be made and opened. -/
theorem openStore_new (hread : StorePath.read p = .ok (.file p' false))
    (hplace : t.storePlace? p' = some q) (hq : t.Housed q) (hnone : t.get? q = none)
    (hjournal : t.get? (journal q) = none) (hlog : t.get? (log q) = none)
    (hname : isUnnameable (journal q) = false) :
    t.openStore p = (.ok {}, t.put q (.file [])) := by
  have hlocate : t.locate (Place.path q) = .ok (.vacant q false) := by
    rw [hq.locate, spotAt, hnone]
  have hmade : (t.put q (.file [])).openAt q (.file []) = .ok ({}, t.put q (.file [])) :=
    openAt_empty ((get?_put_of_ne journal_ne).trans hjournal) ((get?_put_of_ne log_ne).trans hlog)
      hname
  unfold openStore
  rw [hread]
  dsimp only
  rw [hplace]
  dsimp only
  rw [hlocate]
  dsimp only
  rw [if_neg Bool.false_ne_true, hmade]

/-! ## Saving -/

/-- What is left of a store after it was opened in a tree and brought up to date. -/
def saved (t : FileTree) (p : Path) (s : Store) : FileTree :=
  if s.migrate.2.version ≠ s.version then t.saveStore p s.migrate.2 else t

/-- The tree with a store in the file at a place. -/
def withStore (t : FileTree) (q : Place) (s : Store) : FileTree :=
  (t.prune (journal q)).put q (.store s)

theorem saveStore_of_place (hread : StorePath.read p = .ok (.file p' must)) (s : Store) :
    t.saveStore p s =
      match t.storePlace? p' with
      | some q => t.withStore q s
      | none => t := by
  unfold saveStore
  rw [hread]
  rfl

namespace Opened

variable {s : Store} (h : t1.Opened q e s t')

include h

theorem settled_withStore (s' : Store) : (t'.withStore q s').Settled q := by
  have hjournal : (t'.withStore q s').get? (FileTree.journal q) = none := by
    rw [withStore, get?_put_of_ne journal_ne, get?_prune_self (Or.inl rfl)]
  have hlog : (t'.withStore q s').get? (FileTree.log q) = t'.get? (FileTree.log q) := by
    rw [withStore, get?_put_of_ne log_ne, get?_prune_journal]
  refine ⟨?_, ?_, ?_, ?_⟩
  · rw [hjournal]
    exact nofun
  · rw [hjournal]
    exact nofun
  · rw [hlog]
    exact h.settled.log
  · rw [hlog]
    exact h.settled.empty

variable (he : t1.get? q = some e) (hdir : e ≠ .directory)

include he hdir

theorem ne_directory : t'.get? q ≠ some .directory := by
  rw [h.same, he]
  exact fun heq => hdir (Option.some.inj heq)

/-- A store that was opened can be saved. -/
theorem touched_withStore (s' : Store) : Touched q t1 (t'.withStore q s') := by
  refine .fill (.clear h.touched (Or.inl rfl) h.settled.journal) ?_ rfl
  rw [get?_prune_elsewhere (Beside.not_above (Or.inl rfl))]
  exact h.ne_directory he hdir

theorem get?_withStore (s' : Store) : (t'.withStore q s').get? q = some (.store s') :=
  get?_put_self (ne_nil_of_get? (h.ne_directory he hdir))

end Opened

theorem Found.get? (h : t.Found q e t1) (hq : t.Housed q) : t1.get? q = some e ∧ e ≠ .directory := by
  cases h with
  | there he hdir => exact ⟨he, hdir⟩
  | made _ => exact ⟨get?_put_self hq.nonempty, nofun⟩

/-- Where the place of the store is still the same, saving writes there. -/
theorem saved_eq (hread : StorePath.read p = .ok (.file p' must)) (hplace : t.storePlace? p' = some q)
    (s : Store) :
    t.saved p s =
      if s.migrate.2.version ≠ s.version then t.withStore q s.migrate.2 else t := by
  rw [saved, saveStore_of_place hread, hplace]

/-- Saving writes where the store was found, if it writes anything. -/
theorem saved_cases (hread : StorePath.read p = .ok (.file p' must))
    (hplace : ∀ r, t.storePlace? p' = some r → r = q) (s : Store) :
    t.saved p s = t ∨ t.saved p s = t.withStore q s.migrate.2 := by
  cases h : t.storePlace? p' with
  | none =>
    rw [saved, saveStore_of_place hread, h]
    split <;> exact Or.inl rfl
  | some r =>
    obtain rfl := hplace r h
    rw [saved_eq hread h]
    split
    · exact Or.inr rfl
    · exact Or.inl rfl

end FileTree

namespace Project

open FileTree

variable {t t' t1 : FileTree} {q : Place} {e : Entry} {p p' : Path} {must : Bool} {s s' : Store}
  {r : Except Failure Store} {error : StoreError}

theorem on_openStore_of_error (h : t.openStore p = (.error error, t1)) :
    ∃ f, (openStore p).on t = (.error f, t1) :=
  ⟨_, Task.on_bind_of_error _ (Task.on_check_of_error h)⟩

/-- A store that was opened is brought up to date and saved. -/
theorem on_openStore_of_ok (h : t.openStore p = (.ok s, t1)) :
    ∃ r, (openStore p).on t = (r, t1.saved p s) ∧
      ∀ s', r = .ok s' ↔ s.migrate = (none, s') := by
  unfold openStore
  rw [Task.on_bind_of_ok _ (Task.on_check_of_ok h)]
  unfold saved
  rcases hmigrate : s.migrate with ⟨refusal, store⟩
  dsimp only
  by_cases hversion : store.version ≠ s.version
  · rw [if_pos hversion, if_pos hversion, Task.on_bind_of_ok _ (Task.on_lift _)]
    cases refusal with
    | none => exact ⟨.ok store, rfl, by simp⟩
    | some error => exact ⟨_, rfl, by simp⟩
  · rw [if_neg hversion, if_neg hversion]
    cases refusal with
    | none => exact ⟨.ok store, rfl, by simp⟩
    | some error => exact ⟨_, rfl, by simp⟩

/-- What the opening of a store in a file comes to: it fails, and the tree is as it was or has a new
empty file; or it gets as far as bringing the store up to date. -/
theorem on_openStore_cases (hhome : ∀ n ∈ t.home, Path.IsName n)
    (hread : StorePath.read p = .ok (.file p' must)) (h : (openStore p).on t = (r, t')) :
    (∀ s', r ≠ .ok s') ∧
        (t' = t ∨ ∃ q, t.storePlace? p' = some q ∧ t.get? q = none ∧ t' = t.put q (.file [])) ∨
      ∃ q e t1 s t2, t.storePlace? p' = some q ∧ t.Housed q ∧ t.Found q e t1 ∧ t1.Opened q e s t2 ∧
        t' = t2.saved p s ∧ ∀ s', r = .ok s' ↔ s.migrate = (none, s') := by
  rcases hopen : t.openStore p with ⟨_ | s, t2⟩
  · obtain ⟨f, hon⟩ := on_openStore_of_error hopen
    rw [hon] at h
    cases h
    exact Or.inl ⟨nofun, touched_of_openStore_error hhome hread hopen⟩
  · obtain ⟨r', hon, hr⟩ := on_openStore_of_ok hopen
    rw [hon] at h
    cases h
    obtain ⟨q, e, t1, hplace, hq, hfound, hopened⟩ := opened_of_openStore hhome hread hopen
    exact Or.inr ⟨q, e, t1, s, t2, hplace, hq, hfound, hopened, rfl, hr⟩

/-- Where nothing stands, a store can be made and brought up to date. -/
theorem on_openStore_new (hread : StorePath.read p = .ok (.file p' false))
    (hplace : t.storePlace? p' = some q) (hq : t.Housed q) (hnone : t.get? q = none)
    (hjournal : t.get? (journal q) = none) (hlog : t.get? (log q) = none)
    (hname : isUnnameable (journal q) = false) : ∃ s t', (openStore p).on t = (.ok s, t') := by
  obtain ⟨r, hon, hr⟩ :=
    on_openStore_of_ok (openStore_new hread hplace hq hnone hjournal hlog hname)
  rw [hon, (hr _).mpr (Prod.ext rfl rfl)]
  exact ⟨_, _, rfl⟩

/-- A store that is not in a file leaves the tree alone. -/
theorem on_openStore_of_no_file (hread : ∀ p' must, StorePath.read p ≠ .ok (.file p' must))
    (h : (openStore p).on t = (r, t')) : t' = t := by
  cases hpath : StorePath.read p with
  | error error =>
    have hopen : t.openStore p = (.error error, t) := by rw [FileTree.openStore, hpath]
    obtain ⟨f, hon⟩ := on_openStore_of_error hopen
    rw [hon] at h
    cases h
    rfl
  | ok place =>
    cases place with
    | file p' must => exact absurd hpath (hread p' must)
    | temporary =>
      have hopen : t.openStore p = (.ok {}, t) := by rw [FileTree.openStore, hpath]
      have hsave : ∀ s, t.saveStore p s = t := fun s => by rw [saveStore, hpath]
      obtain ⟨r', hon, -⟩ := on_openStore_of_ok hopen
      rw [hon, saved, hsave] at h
      split at h <;> (cases h; rfl)

/-- **Opening a store touches the file of the store and what stands beside it**, and nothing else. A
file that is no store is left alone. -/
theorem openStore_touches (hhome : ∀ n ∈ t.home, Path.IsName n) (h : (openStore p).on t = (r, t')) :
    t' = t ∨ ∃ q, Touched q t t' ∧ ∀ bytes, t.get? q = some (.file bytes) → bytes.length ≤ 1 := by
  by_cases hfile : ∃ p' must, StorePath.read p = .ok (.file p' must)
  · obtain ⟨p', must, hread⟩ := hfile
    rcases on_openStore_cases hhome hread h with
      ⟨-, rfl | ⟨q, hplace, hnone, rfl⟩⟩ | ⟨q, e, t1, s, t2, hplace, hq, hfound, hopened, rfl, -⟩
    · exact Or.inl rfl
    · refine Or.inr ⟨q, .fill .refl ?_ rfl, fun bytes hbytes => ?_⟩
      · rw [hnone]
        exact nofun
      · rw [hnone] at hbytes
        cases hbytes
    · obtain ⟨he, hdir⟩ := hfound.get? hq
      have htouched := hfound.touched.trans hopened.touched
      refine Or.inr ⟨q, ?_, fun bytes hbytes => ?_⟩
      · rcases saved_cases hread (fun r hr => storePlace?_unique htouched.stay.home hplace hr) s with
          hsaved | hsaved
        · rw [hsaved]
          exact htouched
        · rw [hsaved]
          exact hfound.touched.trans (hopened.touched_withStore he hdir _)
      · cases hfound with
        | there he' _ =>
          obtain rfl := Option.some.inj (he'.symm.trans hbytes)
          exact (store?_file hopened.store).1
        | made hnone =>
          rw [hnone] at hbytes
          cases hbytes
  · exact Or.inl (on_openStore_of_no_file (fun p' must hread => hfile ⟨p', must, hread⟩) h)

/-- A store that is up to date, with nothing left beside it to take up, is opened and nothing is
changed. -/
theorem on_openStore_of_settled (hread : StorePath.read p = .ok (.file p' must))
    (hplace : t.storePlace? p' = some q) (hq : t.Housed q) (hs : t.get? q = some (.store s))
    (hsettled : t.Settled q) (hmigrate : s.migrate = (none, s)) :
    (openStore p).on t = (.ok s, t) := by
  have hopen : t.openStore p = (.ok s, t) := by
    rw [openStore_of_found hread hplace hq hs nofun, hsettled.openAt]
  obtain ⟨r, hon, hr⟩ := on_openStore_of_ok hopen
  rw [hon, (hr s).mpr hmigrate, saved, hmigrate]
  exact congrArg (Prod.mk _) (if_neg fun hne => hne rfl)

/-- **A store that was opened is opened again.** If the place of the store stays its place whatever is
done to its file, then the store that an opening returns stands there afterwards, and another opening
returns it again and changes nothing. -/
theorem openStore_again (hhome : ∀ n ∈ t.home, Path.IsName n)
    (hread : StorePath.read p = .ok (.file p' must)) (hplace : t.storePlace? p' = some q)
    (hsteady : ∀ t', Touched q t t' → t'.storePlace? p' = some q)
    (h : (openStore p).on t = (.ok s', t')) :
    t'.Housed q ∧ t'.get? q = some (.store s') ∧ (openStore p).on t' = (.ok s', t') := by
  rcases on_openStore_cases hhome hread h with
    ⟨hfail, -⟩ | ⟨q', e, t1, s, t2, hplace', hq, hfound, hopened, rfl, hr⟩
  · exact absurd rfl (hfail s')
  obtain rfl : q = q' := Option.some.inj (hplace.symm.trans hplace')
  obtain ⟨he, hdir⟩ := hfound.get? hq
  have htouched := hfound.touched.trans hopened.touched
  have hmigrate := (hr s').mp rfl
  have hstore : s.migrate.2 = s' := by rw [hmigrate]
  rw [saved_eq hread (hsteady _ htouched), hstore]
  split
  · -- the store was brought up to date and written
    have hwritten := hfound.touched.trans (hopened.touched_withStore he hdir s')
    have hhoused := hq.stay hwritten.stay
    have hget := hopened.get?_withStore he hdir s'
    exact ⟨hhoused, hget, on_openStore_of_settled hread (hsteady _ hwritten) hhoused hget
      (hopened.settled_withStore s') (Store.migrate_migrate hmigrate)⟩
  · -- the store was up to date, so that it stood in the file
    rename_i hversion
    have hversion : s.migrate.2.version = s.version := by
      rw [hstore]
      exact not_not.mp hversion
    have hsame : s' = s := by
      rw [← hstore]
      exact Store.migrate_eq_self hversion
    subst hsame
    have hget : t2.get? q = some (.store s') := by
      rw [hopened.same, he]
      have hs := hopened.store
      cases e with
      | directory => cases hs
      | store s => rw [show s = s' from Option.some.inj hs]
      | file bytes =>
        rw [(store?_file hs).2] at hversion
        exact absurd hversion (by decide)
    have hhoused := hq.stay htouched.stay
    exact ⟨hhoused, hget, on_openStore_of_settled hread (hsteady _ htouched) hhoused hget
      hopened.settled (Store.migrate_migrate hmigrate)⟩

/-- **Opening a store keeps it**, also when it cannot be brought up to date. -/
theorem openStore_keeps (hhome : ∀ n ∈ t.home, Path.IsName n) (hs : t.get? q = some (.store s))
    (hplace : ∀ p' must q', StorePath.read p = .ok (.file p' must) → t.storePlace? p' = some q' →
      q' = q)
    (h : (openStore p).on t = (r, t')) : ∃ s', t'.get? q = some (.store s') ∧ s.Keeps s' := by
  by_cases hfile : ∃ p' must, StorePath.read p = .ok (.file p' must)
  · obtain ⟨p', must, hread⟩ := hfile
    rcases on_openStore_cases hhome hread h with
      ⟨-, rfl | ⟨q', hplace', hnone, rfl⟩⟩ | ⟨q', e, t1, s1, t2, hplace', hq, hfound, hopened, rfl, -⟩
    · exact ⟨s, hs, .refl s⟩
    · rw [hplace p' must q' hread hplace', hs] at hnone
      cases hnone
    · obtain rfl := hplace p' must q' hread hplace'
      obtain ⟨he, hdir⟩ := hfound.get? hq
      have hthere : e = .store s ∧ t1 = t := by
        cases hfound with
        | there he' _ => exact ⟨Option.some.inj (he'.symm.trans hs), rfl⟩
        | made hnone =>
          rw [hs] at hnone
          cases hnone
      obtain ⟨rfl, rfl⟩ := hthere
      obtain rfl : s = s1 := Option.some.inj hopened.store
      rcases saved_cases hread
        (fun r hr => storePlace?_unique hopened.touched.stay.home hplace' hr) s with hsaved | hsaved
      · rw [hsaved, hopened.same]
        exact ⟨s, hs, .refl s⟩
      · rw [hsaved]
        exact ⟨_, hopened.get?_withStore he hdir _, s.keeps_migrate⟩
  · rw [on_openStore_of_no_file (fun p' must hread => hfile ⟨p', must, hread⟩) h]
    exact ⟨s, hs, .refl s⟩

/-- **Whether a store can be opened is a matter of its place**, what stands there and what stands
beside it. -/
theorem openStore_of_same {u : FileTree} (hhome : ∀ n ∈ t.home, Path.IsName n)
    (hread : StorePath.read p = .ok (.file p' must)) (hplace : t.storePlace? p' = some q)
    (hs : t.get? q = some (.store s)) (hthins : t.Thins u) (hstay : t.DirectoriesStay u)
    (hsame : ∀ r, r = q ∨ Beside q r → u.get? r = t.get? r)
    (h : (openStore p).on t = (.ok s', t')) : ∃ u', (openStore p).on u = (.ok s', u') := by
  rcases hopen : t.openStore p with ⟨_ | s1, t1⟩
  · obtain ⟨f, hon⟩ := on_openStore_of_error hopen
    rw [hon] at h
    cases h
  obtain ⟨r, hon, hr⟩ := on_openStore_of_ok hopen
  rw [hon] at h
  obtain rfl : r = .ok s' := congrArg Prod.fst h
  obtain ⟨hq, hat⟩ : t.Housed q ∧ t.openAt q (.store s) = .ok (s1, t1) := by
    rcases openStore_cases hhome hread with ⟨error, hopen'⟩ | ⟨q', e, t2, hplace', hq, hfound, hopen'⟩
    · rw [hopen] at hopen'
      cases hopen'
    obtain rfl : q = q' := Option.some.inj (hplace.symm.trans hplace')
    cases hfound with
    | made hnone =>
      rw [hs] at hnone
      cases hnone
    | there he _ =>
      obtain rfl : e = .store s := Option.some.inj (he.symm.trans hs)
      refine ⟨hq, ?_⟩
      rw [hopen] at hopen'
      split at hopen' <;> cases hopen'
      assumption
  obtain rfl : s = s1 := Option.some.inj (openAt_eq_ok hat).store
  obtain ⟨hjournal, hlog⟩ := exists_openAt_store_iff.mp ⟨t1, hat⟩
  obtain ⟨u1, hat'⟩ : ∃ u1, u.openAt q (.store s) = .ok (s, u1) := by
    refine exists_openAt_store_iff.mpr ?_
    rw [hsame _ (Or.inr (Or.inl rfl)), hsame _ (Or.inr (Or.inr rfl))]
    exact ⟨hjournal, hlog⟩
  have hopen' : u.openStore p = (.ok s, u1) := by
    rw [openStore_of_found hread (storePlace?_of_thins hthins hhome hplace) (hq.stay hstay)
      ((hsame q (Or.inl rfl)).trans hs) nofun, hat']
  obtain ⟨r, hon', hr'⟩ := on_openStore_of_ok hopen'
  rw [hon', (hr' s').mpr ((hr s').mp rfl)]
  exact ⟨_, rfl⟩

end Project
end SliceRecovery
