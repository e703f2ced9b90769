import SliceRecovery.Proofs.Declaring

/-!
# SliceRecovery.Proofs.Batches -- any sequence of batches and undos

A batch is opened, edited in any way and then closed or taken back; between batches any number of
undos may come. The list of *openings* says what undoing should do, without a journal: it holds the
analyses in which those batches were opened that were closed with an edit in them and not undone
since. Undoing gives the first of them, exactly and in every part, and taking a batch back gives the
analysis in which it was opened. Each kind of edit is journalled exactly, and journals compose, so
it is a matter of indifference how the edits of a batch overlap, repeat or change each other's
ranges.

Only a declaration at the largest address is left out, as it is the one edit whose journal is not
exact.
-/

namespace SliceRecovery

/-! ## Calls -/

/-- An edit that is asked for. -/
inductive EditCall
  | define (a : Address) (type : DataType) (name : Option String)
  | undefine (a : Address)
  | defineType (name : String) (c : Composite)

/-- How a batch ends. -/
inductive BatchEnd
  | commit
  | revert
  deriving DecidableEq

/-- A whole batch, or an undo between batches. -/
inductive Act
  | batch (calls : List EditCall) (ending : BatchEnd)
  | undo

/-- No declaration at the largest address is asked for. -/
def EditCall.Low : EditCall → Prop
  | .define a _ _ => a < Word.top
  | .undefine _ => True
  | .defineType _ _ => True

/-- No call of a batch asks for a declaration at the largest address. -/
def Act.Low : Act → Prop
  | .batch calls _ => ∀ c ∈ calls, c.Low
  | .undo => True

instance : DecidablePred EditCall.Low
  | .define a _ _ => inferInstanceAs (Decidable (a < Word.top))
  | .undefine _ => .isTrue trivial
  | .defineType _ _ => .isTrue trivial

instance : DecidablePred Act.Low
  | .batch calls _ => inferInstanceAs (Decidable (∀ c ∈ calls, c.Low))
  | .undo => .isTrue trivial

namespace Analysis

/-- What a call leaves: one that is refused leaves the analysis as it was. -/
def orSame (h : Analysis) (answer : Except AnalysisError Analysis) : Analysis :=
  match answer with
  | .ok i => i
  | .error _ => h

/-- The analysis after an edit was asked for. -/
def edit (h : Analysis) : EditCall → Analysis
  | .define a type name => h.orSame (h.define a type name)
  | .undefine a => h.orSame (h.undefine a)
  | .defineType name c => h.defineType name c

/-- The analysis after several edits were asked for. -/
def edits (h : Analysis) (calls : List EditCall) : Analysis := calls.foldl edit h

/-- Close the open batch or take it back. -/
def endBatch (h : Analysis) : BatchEnd → Except AnalysisError Analysis
  | .commit => h.commit
  | .revert => h.revert

/-- The analysis at the end of a batch, before the batch is closed. -/
def inBatch (h : Analysis) (calls : List EditCall) : Analysis := (h.orSame h.begin).edits calls

/-- The analysis after a batch or an undo. -/
def act (h : Analysis) : Act → Analysis
  | .batch calls ending => (h.inBatch calls).orSame ((h.inBatch calls).endBatch ending)
  | .undo => h.undo?.getD h

/-- The analysis after several batches and undos. -/
def play (h : Analysis) (acts : List Act) : Analysis := acts.foldl act h

/-- Whether an edit was recorded in the open batch. -/
def hasEdits (h : Analysis) : Bool := h.batch.any fun journal => !journal.isEmpty

/-- The openings after a batch or an undo: a batch that is closed with an edit in it adds the
analysis in which it was opened, and an undo takes the latest away. -/
def openingsAfter (h : Analysis) (openings : List Analysis) : Act → List Analysis
  | .batch calls .commit => if (h.inBatch calls).hasEdits then h :: openings else openings
  | .batch _ .revert => openings
  | .undo => openings.tail

/-- The openings after several batches and undos, the latest first. -/
def openings (h : Analysis) (before : List Analysis) : List Act → List Analysis
  | [] => before
  | a :: acts => (h.act a).openings (h.openingsAfter before a) acts

variable {h i : Analysis} {es : List Edit} {c : EditCall} {calls : List EditCall} {a : Act}
  {acts : List Act} {stack : List Analysis}

/-! ## Edits -/

theorem journals_orSame {answer : Except AnalysisError Analysis}
    (hanswer : ∀ i, answer = .ok i → ∃ es, Journals h i es) :
    ∃ es, Journals h (h.orSame answer) es := by
  cases answer with
  | error e => exact ⟨[], .refl h⟩
  | ok i => exact hanswer i rfl

/-- Every edit is journalled, whether it is refused or not. -/
theorem journals_edit (hc : c.Low) : ∃ es, Journals h (h.edit c) es := by
  cases c with
  | define a type name =>
    refine journals_orSame fun i hi => ?_
    obtain ⟨es, hes, -⟩ := journals_define hi (Or.inl hc)
    exact ⟨es, hes⟩
  | undefine a =>
    refine journals_orSame fun i hi => ?_
    rcases undefine_cases h a with hok | ⟨⟨e, he⟩, -⟩
    · rw [hok] at hi
      cases hi
      obtain ⟨es, hes, -⟩ := journals_evict h a
      exact ⟨es, hes⟩
    · rw [he] at hi
      cases hi
  | defineType name c =>
    obtain ⟨e, he⟩ := journals_defineType h name c
    exact ⟨[e], he⟩

theorem journals_edits (hcalls : ∀ c ∈ calls, c.Low) : ∃ es, Journals h (h.edits calls) es := by
  induction calls generalizing h with
  | nil => exact ⟨[], .refl h⟩
  | cons c calls ih =>
    obtain ⟨es, hes⟩ := journals_edit (h := h) (hcalls c List.mem_cons_self)
    obtain ⟨fs, hfs⟩ := ih (h := h.edit c) fun d hd => hcalls d (List.mem_cons_of_mem _ hd)
    exact ⟨fs ++ es, hes.trans hfs⟩

/-- A batch is journalled from the analysis in which it was opened. -/
theorem journals_inBatch (hb : h.batch = none) (hcalls : ∀ c ∈ calls, c.Low) :
    ∃ es, Journals (h.withBatch (some [])) (h.inBatch calls) es := by
  unfold inBatch
  rw [begin_eq_ok_iff.mpr ⟨hb, rfl⟩]
  exact journals_edits hcalls

theorem hasEdits_of_journals (hi : Journals (h.withBatch (some [])) i es) :
    i.hasEdits = !es.isEmpty := by
  unfold hasEdits
  rw [hi.batch_eq_some]
  rfl

/-! ## One batch or undo -/

/-- Undoing leads from an analysis through the given ones to one without a history. -/
inductive Undoable : List Analysis → Analysis → Prop
  | nil {h : Analysis} : h.batch = none → h.history = [] → Undoable [] h
  | cons {h base : Analysis} {stack : List Analysis} : h.batch = none →
      h.undo? = some base → Undoable stack base → Undoable (base :: stack) h

theorem Undoable.closed (hu : Undoable stack h) : h.batch = none := by
  cases hu with
  | nil hb _ => exact hb
  | cons hb _ _ => exact hb

theorem Undoable.undo? (hu : Undoable stack h) : h.undo? = stack.head? := by
  cases hu with
  | nil _ hh =>
    unfold Analysis.undo?
    rw [hh]
    rfl
  | cons _ hundo _ => exact hundo

/-- Taking a batch back gives the analysis in which it was opened. -/
theorem revert_inBatch (hb : h.batch = none) (hcalls : ∀ c ∈ calls, c.Low) :
    (h.inBatch calls).revert = .ok h := by
  obtain ⟨es, hes⟩ := journals_inBatch hb hcalls
  exact revert_of_journals hb hes

/-- Closing a batch leaves one more opening if the batch has an edit in it, and else nothing. -/
theorem Undoable.commit (hu : Undoable stack h) (hcalls : ∀ c ∈ calls, c.Low) :
    ∃ j, (h.inBatch calls).commit = .ok j ∧
      Undoable (if (h.inBatch calls).hasEdits then h :: stack else stack) j := by
  have hb := hu.closed
  obtain ⟨es, hes⟩ := journals_inBatch hb hcalls
  rw [hasEdits_of_journals hes]
  cases es with
  | nil =>
    -- calls that were all refused leave no batch behind
    rw [hes.eq_of_nil, commit_withBatch_nil hb]
    exact ⟨h, rfl, hu⟩
  | cons e es =>
    refine ⟨_, commit_of_journals hes (List.cons_ne_nil _ _), ?_⟩
    refine .cons rfl ?_ hu
    -- no pass was asked for in the batch, so undoing gives back that number as well
    have hpasses : (h.inBatch calls).passes = h.passes := hes.passes_eq
    have hundo := undo?_of_journals hb hes (h.inBatch calls).passes
    rw [hpasses] at hundo
    rw [hpasses]
    exact hundo

/-- A batch or an undo changes the openings as it should. -/
theorem Undoable.act (hu : Undoable stack h) (ha : a.Low) :
    Undoable (h.openingsAfter stack a) (h.act a) := by
  cases a with
  | batch calls ending =>
    unfold Analysis.act
    cases ending with
    | commit =>
      obtain ⟨j, hj, huj⟩ := hu.commit ha
      show Undoable _ ((h.inBatch calls).orSame (h.inBatch calls).commit)
      rw [hj]
      exact huj
    | revert =>
      show Undoable _ ((h.inBatch calls).orSame (h.inBatch calls).revert)
      rw [revert_inBatch hu.closed ha]
      exact hu
  | undo =>
    unfold Analysis.act
    rw [hu.undo?]
    cases hu with
    | nil hb hh => exact .nil hb hh
    | cons _ _ hbase => exact hbase

/-! ## Sequences -/

theorem Undoable.play (hu : Undoable stack h) (hacts : ∀ a ∈ acts, a.Low) :
    Undoable (h.openings stack acts) (h.play acts) := by
  induction acts generalizing h stack with
  | nil => exact hu
  | cons a acts ih =>
    exact ih (hu.act (hacts a List.mem_cons_self)) fun b hb => hacts b (List.mem_cons_of_mem _ hb)

/-- **The journal is an exact inverse under every sequence of batches.** Let no batch be open and
the history be empty, and let batches of any edits below the largest address, closed or taken back,
and undos between them follow in any order. Then taking a batch back gives the analysis in which it
was opened, and an undo gives the analysis in which the latest batch was opened that was closed with
an edit in it and was not undone yet; if there is none, there is nothing to undo. -/
theorem batches_undo_exactly (hclosed : h.batch = none) (hempty : h.history = [])
    (hlow : ∀ a ∈ acts, a.Low) :
    (∀ before calls after, acts = before ++ .batch calls .revert :: after →
      ∃ opened, (h.play before).begin = .ok opened ∧
        (opened.edits calls).revert = .ok (h.play before)) ∧
    (∀ before after, acts = before ++ .undo :: after →
      (h.play before).undo? = (h.openings [] before).head?) := by
  -- the openings describe the history after every first part of the sequence
  have hbefore : ∀ before rest, acts = before ++ rest →
      Undoable (h.openings [] before) (h.play before) := by
    rintro before rest rfl
    exact (Undoable.nil hclosed hempty).play fun a ha => hlow a (List.mem_append_left _ ha)
  refine ⟨?_, ?_⟩
  · intro before calls after hacts
    have hb := (hbefore before _ hacts).closed
    have hcalls : (Act.batch calls .revert).Low := by
      apply hlow
      rw [hacts]
      exact List.mem_append_right _ List.mem_cons_self
    refine ⟨_, begin_eq_ok_iff.mpr ⟨hb, rfl⟩, ?_⟩
    have hrevert := revert_inBatch hb hcalls
    unfold inBatch at hrevert
    rwa [begin_eq_ok_iff.mpr ⟨hb, rfl⟩] at hrevert
  · intro before after hacts
    exact (hbefore before _ hacts).undo?

/-- An analysis with variables that touch, one of a named type and one at the largest address. -/
def touchingWords : Analysis where
  types := .ofList [("Pair", ⟨true, [⟨"first", .unsigned 2⟩, ⟨"second", .unsigned 2⟩]⟩)]
  declared := .ofList [
    ⟨0x1000, .unsigned 4, some "first", none⟩,
    ⟨0x1004, .named "Pair", some "second", none⟩,
    ⟨0x1008, .unsigned 4, some "third", none⟩,
    ⟨Word.top, .char, some "last", none⟩]

/-- A batch that is closed, one that is taken back, another that is closed, and two undos. The
batches declare over several variables, declare and remove at one address, fail, and give the named
type another width. -/
def overlappingEdits : List Act := [
  .batch [.define 0x1002 (.text 4) none,
    .defineType "Pair" ⟨false, [⟨"first", .char⟩, ⟨"second", .unsigned 8⟩]⟩,
    .define 0x1006 (.named "Pair") (some "pair"), .define 0x1000 (.named "Unknown") none,
    .undefine 0x1002, .undefine 0x1002] .commit,
  .batch [.undefine 0x1006, .define 0x1000 (.raw 32) none] .revert,
  .batch [.undefine Word.top, .defineType "Other" ⟨true, []⟩] .commit,
  .undo, .undo]

theorem undo_overlappingEdits :
    touchingWords.batch = none ∧ touchingWords.history = [] ∧
      (∀ a ∈ overlappingEdits, a.Low) ∧
      (touchingWords.play (overlappingEdits.take 3)).declared.keys = [0x1006] ∧
      (touchingWords.play (overlappingEdits.take 3)).undo? =
        some (touchingWords.play (overlappingEdits.take 2)) ∧
      (touchingWords.play (overlappingEdits.take 4)).undo? = some touchingWords := by
  have hlow : ∀ a ∈ overlappingEdits, a.Low := by decide
  have hundo := (batches_undo_exactly (h := touchingWords) rfl rfl hlow).2
  exact ⟨rfl, rfl, hlow, by decide +kernel,
    hundo (overlappingEdits.take 3) [.undo] rfl, hundo (overlappingEdits.take 4) [] rfl⟩

end Analysis
end SliceRecovery
