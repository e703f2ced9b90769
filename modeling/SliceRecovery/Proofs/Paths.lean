import Mathlib.Data.List.Basic
import SliceRecovery.Files.Path

/-!
# SliceRecovery.Proofs.Paths -- paths that are joined and taken apart

A path joined to another stands behind a text that ends with a slash, or behind nothing (`lead`).
Pieces do not reach over a slash, so the pieces of the whole are those in front and those of the
path that was joined (`cut_join`). From this follows that what was joined is found again: a path that
neither starts nor ends with an idle piece is what is left after the components of the other one are
taken off (`relativeTo?_join`), in whatever way that one is written.
-/

namespace SliceRecovery.Path

variable {p q r : Path} {a b cs piece : List Char} {ps rest : List (List Char)}

/-! ## Pieces -/

theorem cut_ne_nil (cs : List Char) : cut cs ≠ [] := by
  cases cs with
  | nil => simp [cut]
  | cons c cs =>
    unfold cut
    split
    · simp
    · split <;> simp

theorem cut_slash (cs : List Char) : cut ('/' :: cs) = [] :: cut cs := by
  rw [cut, if_pos rfl]

theorem cut_cons {c : Char} (hc : c ≠ '/') (hcs : cut cs = piece :: ps) :
    cut (c :: cs) = (c :: piece) :: ps := by
  rw [cut, if_neg hc, hcs]

/-- Pieces do not reach over a slash. -/
theorem cut_append_slash (a b : List Char) : cut (a ++ '/' :: b) = cut a ++ cut b := by
  induction a with
  | nil => exact cut_slash b
  | cons c a ih =>
    by_cases hc : c = '/'
    · subst hc
      rw [List.cons_append, cut_slash, ih, cut_slash]
      rfl
    · obtain ⟨piece, ps, hcut⟩ := List.exists_cons_of_ne_nil (cut_ne_nil a)
      rw [hcut] at ih
      rw [List.cons_append, cut_cons hc hcut, cut_cons hc ih]
      rfl

theorem cut_of_not_mem (h : '/' ∉ cs) : cut cs = [cs] := by
  induction cs with
  | nil => rfl
  | cons c cs ih =>
    rw [List.mem_cons, not_or] at h
    exact cut_cons (Ne.symm h.1) (ih h.2)

/-- No piece has a slash. -/
theorem not_mem_of_mem_cut (h : piece ∈ cut cs) : '/' ∉ piece := by
  induction cs generalizing piece with
  | nil =>
    rw [cut, List.mem_singleton] at h
    subst h
    exact List.not_mem_nil
  | cons c cs ih =>
    by_cases hc : c = '/'
    · subst hc
      rw [cut_slash, List.mem_cons] at h
      rcases h with rfl | h
      · exact List.not_mem_nil
      · exact ih h
    · obtain ⟨first, ps, hcut⟩ := List.exists_cons_of_ne_nil (cut_ne_nil cs)
      rw [hcut] at ih
      rw [cut_cons hc hcut, List.mem_cons] at h
      rcases h with rfl | h
      · rw [List.mem_cons, not_or]
        exact ⟨Ne.symm hc, ih List.mem_cons_self⟩
      · exact ih (List.mem_cons_of_mem _ h)

theorem paste_cons (piece : List Char) (h : ps ≠ []) :
    paste (piece :: ps) = piece ++ '/' :: paste ps := by
  cases ps with
  | nil => exact absurd rfl h
  | cons _ _ => rfl

theorem paste_cut (cs : List Char) : paste (cut cs) = cs := by
  induction cs with
  | nil => rfl
  | cons c cs ih =>
    by_cases hc : c = '/'
    · subst hc
      rw [cut_slash, paste_cons _ (cut_ne_nil cs), ih]
      rfl
    · obtain ⟨piece, ps, hcut⟩ := List.exists_cons_of_ne_nil (cut_ne_nil cs)
      rw [hcut] at ih
      rw [cut_cons hc hcut]
      cases ps with
      | nil => exact congrArg (c :: ·) ih
      | cons _ _ => exact congrArg (c :: ·) ih

theorem cut_paste (hne : ps ≠ []) (h : ∀ piece ∈ ps, '/' ∉ piece) : cut (paste ps) = ps := by
  induction ps with
  | nil => exact absurd rfl hne
  | cons piece ps ih =>
    obtain ⟨hpiece, hps⟩ := List.forall_mem_cons.mp h
    cases ps with
    | nil => exact cut_of_not_mem hpiece
    | cons next ps =>
      rw [paste_cons piece (List.cons_ne_nil _ _), cut_append_slash, cut_of_not_mem hpiece,
        ih (List.cons_ne_nil _ _) hps]
      rfl

theorem mem_paste {c : Char} (h : c ∈ paste ps) : c = '/' ∨ ∃ piece ∈ ps, c ∈ piece := by
  induction ps with
  | nil => cases h
  | cons piece ps ih =>
    cases ps with
    | nil => exact Or.inr ⟨piece, List.mem_cons_self, h⟩
    | cons next ps =>
      rw [paste_cons piece (List.cons_ne_nil _ _), List.mem_append, List.mem_cons] at h
      rcases h with h | h | h
      · exact Or.inr ⟨piece, List.mem_cons_self, h⟩
      · exact Or.inl h
      · obtain hslash | ⟨other, hother, hc⟩ := ih h
        · exact Or.inl hslash
        · exact Or.inr ⟨other, List.mem_cons_of_mem _ hother, hc⟩

/-! ## Joining -/

theorem eq_of_chars (h : p.chars = q.chars) : p = q := by
  cases p
  exact congrArg mk h

/-- What stands in front of a path that is joined to `p`. -/
def lead (p : Path) : List Char :=
  if p.chars = [] ∨ p.chars.getLast? = some '/' then p.chars else p.chars ++ ['/']

/-- The pieces in front of those of a path that is joined to `p`. -/
def leadPieces (p : Path) : List (List Char) := (cut p.lead).dropLast

theorem chars_join (hq : q.isAbsolute = false) : (p.join q).chars = p.lead ++ q.chars := by
  rw [join, hq, if_neg Bool.false_ne_true, lead]
  split
  · rename_i hlast
    rw [List.getLast?_eq_none_iff.mp hlast]
    rfl
  · rename_i hlast
    rw [if_pos (Or.inr hlast)]
  · rename_i c hc hlast
    have hne : ¬ (p.chars = [] ∨ p.chars.getLast? = some '/') := by
      rintro (h | h)
      · rw [h] at hlast
        cases hlast
      · exact hc (Option.some.inj (hlast.symm.trans h))
    rw [if_neg hne, List.append_assoc]
    rfl

theorem lead_of_eq_nil (hp : p.chars = []) : p.lead = [] := by
  rw [lead, if_pos (Or.inl hp), hp]

/-- A path in front ends with a slash, which it may have had already. -/
theorem lead_eq (hp : p.chars ≠ []) :
    ∃ a, p.lead = a ++ ['/'] ∧ (p.chars = a ∨ p.chars = a ++ ['/']) := by
  unfold lead
  split
  · rename_i h
    obtain ⟨a, ha⟩ := List.getLast?_eq_some_iff.mp (h.resolve_left hp)
    exact ⟨a, ha, Or.inr ha⟩
  · exact ⟨p.chars, rfl, Or.inl rfl⟩

theorem cut_lead_append (p : Path) (cs : List Char) :
    cut (p.lead ++ cs) = p.leadPieces ++ cut cs := by
  unfold leadPieces
  by_cases hp : p.chars = []
  · rw [lead_of_eq_nil hp]
    rfl
  · obtain ⟨a, ha, -⟩ := lead_eq hp
    rw [ha, List.append_assoc, List.singleton_append, cut_append_slash, cut_append_slash]
    simp [cut]

/-- The pieces of a path that was joined come last. -/
theorem cut_join (hq : q.isAbsolute = false) :
    cut (p.join q).chars = p.leadPieces ++ cut q.chars := by
  rw [chars_join hq, cut_lead_append]

theorem isAbsolute_join (hq : q.isAbsolute = false) : (p.join q).isAbsolute = p.isAbsolute := by
  have hhead : (p.lead ++ q.chars).head? = some '/' ↔ p.chars.head? = some '/' := by
    by_cases hp : p.chars = []
    · unfold isAbsolute at hq
      rw [lead_of_eq_nil hp, hp, List.nil_append]
      simpa using hq
    · obtain ⟨a, ha, hchars⟩ := lead_eq hp
      rw [ha]
      cases a with
      | nil =>
        rcases hchars with h | h
        · exact absurd h hp
        · simp [h]
      | cons c a => rcases hchars with h | h <;> simp [h]
  unfold isAbsolute
  rw [chars_join hq]
  exact decide_eq_decide.mpr hhead

theorem lead_join (hne : q.chars ≠ []) (hq : q.isAbsolute = false) :
    (p.join q).lead = p.lead ++ q.lead := by
  have hlast : (p.lead ++ q.chars).getLast? = q.chars.getLast? := by
    rw [List.getLast?_append]
    exact Option.or_of_isSome (by simpa using hne)
  have hne' : (p.join q).chars ≠ [] := by
    rw [chars_join hq]
    exact List.append_ne_nil_of_right_ne_nil _ hne
  unfold lead
  rw [chars_join hq] at hne' ⊢
  rw [hlast]
  by_cases hslash : q.chars.getLast? = some '/'
  · rw [if_pos (Or.inr hslash), if_pos (Or.inr hslash)]
    rfl
  · rw [if_neg (not_or.mpr ⟨hne', hslash⟩), if_neg (not_or.mpr ⟨hne, hslash⟩), List.append_assoc]
    rfl

/-- It is all one in which order three paths are joined. -/
theorem join_join (hne : q.chars ≠ []) (hq : q.isAbsolute = false) (hr : r.isAbsolute = false) :
    (p.join q).join r = p.join (q.join r) := by
  have hinner : (q.join r).isAbsolute = false := (isAbsolute_join hr).trans hq
  apply eq_of_chars
  rw [chars_join hr, chars_join hinner, chars_join hr, lead_join hne hq, List.append_assoc]

/-! ## Taking a path off -/

/-- Neither the first nor the last piece is idle. -/
structure Tidy (q : Path) : Prop where
  first : ∃ piece ps, cut q.chars = piece :: ps ∧ isIdle piece = false
  last : ∃ ps piece, cut q.chars = ps ++ [piece] ∧ isIdle piece = false

theorem trimEnd_append (h : isIdle piece = false) : trimEnd (ps ++ [piece]) = ps ++ [piece] := by
  unfold trimEnd
  rw [List.reverse_append, List.reverse_singleton, List.singleton_append,
    List.dropWhile_cons_of_neg (by rw [h]; exact Bool.false_ne_true), List.reverse_cons,
    List.reverse_reverse]

namespace Tidy

variable (hq : q.Tidy)

include hq

theorem isAbsolute_eq : q.isAbsolute = false := by
  obtain ⟨piece, ps, hcut, hpiece⟩ := hq.first
  rw [Bool.eq_false_iff]
  intro habs
  obtain ⟨cs, hcs⟩ := List.head?_eq_some_iff.mp (of_decide_eq_true habs)
  rw [hcs, cut_slash] at hcut
  cases hcut
  exact absurd hpiece (by decide)

theorem trimEnd_eq : trimEnd (cut q.chars) = cut q.chars := by
  obtain ⟨ps, piece, hcut, hpiece⟩ := hq.last
  rw [hcut, trimEnd_append hpiece]

theorem dropWhile_append {idle : List (List Char)} (hidle : ∀ i ∈ idle, isIdle i = true) :
    (idle ++ cut q.chars).dropWhile isIdle = cut q.chars := by
  obtain ⟨piece, ps, hcut, hpiece⟩ := hq.first
  rw [List.dropWhile_append_of_pos hidle, hcut,
    List.dropWhile_cons_of_neg (by rw [hpiece]; exact Bool.false_ne_true)]

theorem cutUp_eq : q.cutUp = ⟨[], cut q.chars⟩ := by
  obtain ⟨piece, ps, hcut, hpiece⟩ := hq.first
  unfold cutUp
  split
  · rename_i rest hchars
    rw [hchars, cut_slash] at hcut
    cases hcut
    exact absurd hpiece (by decide)
  · rename_i hchars
    rw [hchars] at hcut
    cases hcut
    exact absurd hpiece (by decide)
  · rename_i rest hchars
    rw [hchars, cut_cons (by decide) (cut_slash rest)] at hcut
    cases hcut
    exact absurd hpiece (by decide)
  · rfl

end Tidy

/-- A path that starts neither with a slash nor with a piece `.` is cut up as it is. -/
theorem cutUp_of_ne (hslash : cs.head? ≠ some '/') (hdot : cs ≠ ['.'])
    (hhere : ∀ rest, cs ≠ '.' :: '/' :: rest) : cutUp ⟨cs⟩ = ⟨[], cut cs⟩ := by
  unfold cutUp
  split
  · rename_i rest hcs
    exact absurd (congrArg List.head? hcs) hslash
  · rename_i hcs
    exact absurd hcs hdot
  · rename_i rest hcs
    exact absurd hcs (hhere rest)
  · rfl

/-- The pieces that are not idle. -/
def active (ps : List (List Char)) : List (List Char) := ps.filter fun i => !isIdle i

/-- What follows a slash does not change how the text in front of it is cut up. -/
theorem cutUp_append_slash (a : List Char) :
    ∃ start ps, (∀ b, cutUp ⟨a ++ '/' :: b⟩ = ⟨start, ps ++ cut b⟩) ∧
      (a ≠ [] → (cutUp ⟨a⟩).start = start ∧ active ps = active (cutUp ⟨a⟩).pieces) := by
  by_cases hnil : a = []
  · subst hnil
    exact ⟨['/'], [], fun _ => rfl, fun h => absurd rfl h⟩
  by_cases hslash : a.head? = some '/'
  · obtain ⟨a, rfl⟩ := List.head?_eq_some_iff.mp hslash
    exact ⟨['/'], cut a, fun b => congrArg (Cut.mk ['/']) (cut_append_slash a b),
      fun _ => ⟨rfl, rfl⟩⟩
  by_cases hdot : a = ['.']
  · subst hdot
    exact ⟨['.'], [[]], fun _ => rfl, fun _ => ⟨rfl, rfl⟩⟩
  by_cases hhere : ∃ rest, a = '.' :: '/' :: rest
  · obtain ⟨a, rfl⟩ := hhere
    exact ⟨['.'], [] :: cut a,
      fun b => congrArg (fun ps => Cut.mk ['.'] ([] :: ps)) (cut_append_slash a b),
      fun _ => ⟨rfl, rfl⟩⟩
  · -- the text starts with a name, and goes on doing so
    have hhead : ∀ b, (a ++ '/' :: b).head? = a.head? := fun b =>
      List.head?_append_of_ne_nil _ hnil
    refine ⟨[], cut a, fun b => ?_, fun _ => ?_⟩
    · rw [cutUp_of_ne ((hhead b).trans_ne hslash), cut_append_slash]
      · intro h
        have hlength := congrArg List.length h
        rw [List.length_append, List.length_cons, List.length_singleton] at hlength
        have := List.length_pos_iff.mpr hnil
        omega
      · intro rest h
        match a, hnil, hdot, hhere, h with
        | [c], _, hdot, _, h => exact hdot (congrArg (fun c => [c]) (List.cons.inj h).1)
        | c :: d :: a, _, _, hhere, h =>
          obtain ⟨hc, h⟩ := List.cons.inj h
          exact hhere ⟨a, by rw [hc, (List.cons.inj h).1]⟩
    · rw [cutUp_of_ne hslash hdot fun rest h => hhere ⟨rest, h⟩]
      exact ⟨rfl, rfl⟩

/-- A path that was joined to another one starts like it, and apart from idle pieces the pieces in
front are those of the other one. -/
theorem cutUp_join (hp : p.chars ≠ []) (hq : q.isAbsolute = false) :
    (p.join q).cutUp.start = p.cutUp.start ∧
      ∃ ps, (p.join q).cutUp.pieces = ps ++ cut q.chars ∧ active ps = active p.cutUp.pieces := by
  obtain ⟨a, ha, hchars⟩ := lead_eq hp
  obtain ⟨start, ps, hcut, hself⟩ := cutUp_append_slash a
  have hjoin : p.join q = ⟨a ++ '/' :: q.chars⟩ := by
    refine eq_of_chars ((chars_join hq).trans ?_)
    rw [ha, List.append_assoc]
    rfl
  rw [hjoin, hcut]
  rcases hchars with h | h
  · obtain ⟨hstart, hactive⟩ := hself (h ▸ hp)
    rw [show p = ⟨a⟩ from eq_of_chars h]
    exact ⟨hstart.symm, ps, rfl, hactive⟩
  · rw [show p = ⟨a ++ ['/']⟩ from eq_of_chars h, hcut]
    refine ⟨rfl, ps, rfl, ?_⟩
    rw [active, active, List.filter_append]
    exact (List.append_nil _).symm

/-- A path starts with the root, with a piece `.`, or with a piece that is not idle, unless it is
empty. -/
theorem cutUp_cases (p : Path) :
    p.cutUp.start = ['/'] ∨ p.cutUp.start = ['.'] ∨ p.chars = [] ∨
      p.cutUp.start = [] ∧ active p.cutUp.pieces ≠ [] := by
  obtain ⟨cs⟩ := p
  unfold cutUp
  split
  · exact Or.inl rfl
  · exact Or.inr (Or.inl rfl)
  · exact Or.inr (Or.inl rfl)
  · rename_i hslash hdot hhere
    refine Or.inr (Or.inr ?_)
    match cs with
    | [] => exact Or.inl rfl
    | c :: cs =>
      refine Or.inr ⟨rfl, ?_⟩
      obtain ⟨piece, ps, hcut⟩ := List.exists_cons_of_ne_nil (cut_ne_nil cs)
      have hc : c ≠ '/' := fun h => hslash cs (congrArg (fun c => c :: cs) h)
      have hidle : isIdle (c :: piece) = false := by
        rw [Bool.eq_false_iff]
        intro h
        have h : c :: piece = ['.'] := by simpa [isIdle] using h
        obtain ⟨rfl, rfl⟩ := List.cons.inj h
        -- the text goes on with a slash, if it goes on
        rw [← paste_cut cs, hcut] at hdot hhere
        cases ps with
        | nil => exact hdot rfl
        | cons next ps => exact hhere _ rfl
      rw [cut_cons hc hcut, active, List.filter_cons_of_pos (by rw [hidle]; rfl)]
      exact List.cons_ne_nil _ _

/-! ## Components -/

/-- The components of pieces that are not idle are taken off the pieces. -/
theorem dropComponents_append (ps rest : List (List Char)) :
    ∃ idle, (∀ i ∈ idle, isIdle i = true) ∧
      dropComponents ((active ps).map component) (ps ++ rest) = some (idle ++ rest) := by
  induction ps with
  | nil => exact ⟨[], List.forall_mem_nil _, rfl⟩
  | cons piece ps ih =>
    obtain ⟨idle, hidle, hdrop⟩ := ih
    cases hpiece : isIdle piece with
    | false =>
      refine ⟨idle, hidle, ?_⟩
      rw [active, List.filter_cons_of_pos (by rw [hpiece]; rfl), List.map_cons, dropComponents,
        List.cons_append, List.dropWhile_cons_of_neg (by rw [hpiece]; exact Bool.false_ne_true)]
      dsimp only
      rw [if_pos rfl]
      exact hdrop
    | true =>
      rw [active, List.filter_cons_of_neg (by rw [hpiece]; exact Bool.false_ne_true)]
      rw [active] at hdrop
      cases hactive : (ps.filter fun i => !isIdle i).map component with
      | nil =>
        -- nothing is to be taken off, so that all pieces stay
        rw [hactive] at hdrop
        refine ⟨piece :: idle, List.forall_mem_cons.mpr ⟨hpiece, hidle⟩, ?_⟩
        rw [dropComponents, Option.some.injEq] at hdrop ⊢
        rw [List.cons_append, hdrop]
        rfl
      | cons c cs =>
        rw [hactive, dropComponents] at hdrop
        refine ⟨idle, hidle, ?_⟩
        rw [dropComponents, List.cons_append, List.dropWhile_cons_of_pos hpiece]
        exact hdrop

theorem components_eq (p : Path) :
    p.components =
      (if p.cutUp.start = ['/'] then [.root] else if p.cutUp.start = ['.'] then [.here] else []) ++
        (active p.cutUp.pieces).map component := rfl

/-- **What was joined is found again.** However a path is written, a tidy path joined to it is what is
left of the whole after the components of the path are taken off. -/
theorem relativeTo?_join (hq : q.Tidy) : (p.join q).relativeTo? p = some q := by
  have hpaste : ∀ idle : List (List Char), (∀ i ∈ idle, isIdle i = true) →
      (⟨paste (trimEnd ((idle ++ cut q.chars).dropWhile isIdle))⟩ : Path) = q := by
    intro idle hidle
    rw [hq.dropWhile_append hidle, hq.trimEnd_eq, paste_cut]
  by_cases hp : p.chars = []
  · have hjoin : p.join q = q := eq_of_chars (by
      rw [chars_join hq.isAbsolute_eq, lead_of_eq_nil hp, List.nil_append])
    have hcomponents : p.components = [] := by
      rw [show p = ⟨[]⟩ from eq_of_chars hp]
      rfl
    rw [relativeTo?, hjoin, hcomponents, hq.cutUp_eq]
    dsimp only
    rw [hq.trimEnd_eq, Cut.join, paste_cut]
    rfl
  · obtain ⟨hstart, ps, hpieces, hactive⟩ := cutUp_join hp hq.isAbsolute_eq
    obtain ⟨idle, hidle, hdrop⟩ := dropComponents_append ps (cut q.chars)
    rw [hactive] at hdrop
    rw [relativeTo?, components_eq, hstart, hpieces]
    rcases p.cutUp_cases with h | h | h | ⟨h, hne⟩
    · simp [h, hdrop, hpaste idle hidle]
    · simp [h, hdrop, hpaste idle hidle]
    · exact absurd h hp
    · obtain ⟨piece, rest, hcons⟩ := List.exists_cons_of_ne_nil hne
      rw [hcons, List.map_cons] at hdrop ⊢
      by_cases hup : piece = ['.', '.']
      · rw [component, if_pos hup] at hdrop ⊢
        simp [h, hdrop, hpaste idle hidle]
      · rw [component, if_neg hup] at hdrop ⊢
        simp [h, hdrop, hpaste idle hidle]

end SliceRecovery.Path
