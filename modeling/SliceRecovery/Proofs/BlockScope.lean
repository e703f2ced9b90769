import SliceRecovery.Recovery.Reference

/-!
# SliceRecovery.Proofs.BlockScope -- a suggested length comes from the block of the reference

The code at a reference is looked up twice, once for the instruction and once for its block, and
several blocks may have instructions at one address. Both searches settle on the same block: the
first one, in the order of the blocks, with an instruction at the address. What is suggested is read
off that block alone, so whatever the blocks without an instruction at the address hold, and wherever
among the others they stand, the suggestion is the same.
-/

namespace SliceRecovery

/-- `x` is the first entry of a list with a property. -/
def FirstWith {α : Type} (p : α → Prop) (xs : List α) (x : α) : Prop :=
  p x ∧ ∃ before after, xs = before ++ x :: after ∧ ∀ y ∈ before, ¬ p y

namespace FirstWith

variable {α β : Type} {p : α → Prop} {xs : List α} {x : α}

/-- A search for an entry finds the first one. -/
theorem find?_eq_some_iff {test : α → Bool} (htest : ∀ y, test y = true ↔ p y) :
    xs.find? test = some x ↔ FirstWith p xs x := by
  rw [List.find?_eq_some_iff_append]
  unfold FirstWith
  simp only [htest, Bool.not_eq_true', ← Bool.not_eq_true]

/-- A search for a value finds that of the first entry that has one. -/
theorem findSome?_eq_some_iff {value? : α → Option β} {y : β} :
    xs.findSome? value? = some y ↔
      ∃ x, FirstWith (fun x => ∃ z, value? x = some z) xs x ∧ value? x = some y := by
  rw [List.findSome?_eq_some_iff]
  constructor
  · rintro ⟨before, x, after, hxs, hx, hnone⟩
    refine ⟨x, ⟨⟨y, hx⟩, before, after, hxs, ?_⟩, hx⟩
    rintro w hw ⟨z, hz⟩
    rw [hnone w hw] at hz
    cases hz
  · rintro ⟨x, ⟨-, before, after, hxs, hnone⟩, hx⟩
    refine ⟨before, x, after, hxs, hx, fun w hw => ?_⟩
    exact Option.eq_none_iff_forall_ne_some.mpr fun z hz => hnone w hw ⟨z, hz⟩

/-- The first entry with a property depends on the entries with that property only. -/
theorem find?_eq_of_filter [DecidablePred p] {ys : List α}
    (h : xs.filter (p ·) = ys.filter (p ·)) : xs.find? (p ·) = ys.find? (p ·) := by
  rw [← List.head?_filter, ← List.head?_filter, h]

end FirstWith

/-! ## Blocks and constants -/

/-- An instruction of the block stands at an address. -/
def Block.HasInstructionAt (b : Block) (a : Address) : Prop := ∃ i ∈ b.instructions, i.address = a

instance (b : Block) : DecidablePred b.HasInstructionAt := fun a =>
  inferInstanceAs (Decidable (∃ i ∈ b.instructions, i.address = a))

theorem Block.holds_iff {b : Block} {a : Address} : b.holds a = true ↔ b.HasInstructionAt a := by
  unfold holds HasInstructionAt
  rw [List.any_eq_true]
  simp only [beq_iff_eq]

/-- An operand is a constant with a value. -/
def Operand.HasConstant (o : Operand) (n : UInt64) : Prop := o.kind = .constant ∧ o.value = some n

theorem Operand.constant?_eq_some_iff {o : Operand} {n : UInt64} :
    o.constant? = some n ↔ o.HasConstant n := by
  unfold constant? HasConstant
  cases o.kind with
  | named => simp
  | constant => simp
  | other => simp

/-- A value is the first constant of an instruction. -/
def Instruction.StartsWith (i : Instruction) (n : UInt64) : Prop :=
  ∃ o, FirstWith (fun o => ∃ m, o.HasConstant m) i.operands o ∧ o.HasConstant n

theorem Instruction.firstConstant?_eq_some_iff {i : Instruction} {n : UInt64} :
    i.firstConstant? = some n ↔ i.StartsWith n := by
  unfold firstConstant? StartsWith
  rw [FirstWith.findSome?_eq_some_iff]
  simp only [Operand.constant?_eq_some_iff]

/-- A value is the first constant after an instruction of a block. Instructions are after it when
their index is greater. -/
def Block.NextConstant (b : Block) (i : Instruction) (n : UInt64) : Prop :=
  ∃ j, FirstWith (fun j => ∃ m, j.StartsWith m)
    (b.instructions.filter fun j => i.index < j.index) j ∧ j.StartsWith n

theorem Block.findSome?_after_eq_some_iff {b : Block} {i : Instruction} {n : UInt64} :
    (b.after i.index).findSome? Instruction.firstConstant? = some n ↔ b.NextConstant i n := by
  unfold NextConstant
  rw [FirstWith.findSome?_eq_some_iff]
  simp only [Instruction.firstConstant?_eq_some_iff]
  rfl

/-- Where indices rise along a block, what is after an instruction by index is what stands after
it. -/
theorem Block.filter_of_ascending {b : Block} {i : Instruction} {before after : List Instruction}
    (hasc : b.instructions.Pairwise fun i j => i.index < j.index)
    (hb : b.instructions = before ++ i :: after) :
    (b.instructions.filter fun j => i.index < j.index) = after := by
  rw [hb, List.pairwise_append, List.pairwise_cons] at hasc
  obtain ⟨-, ⟨hafter, -⟩, hbefore⟩ := hasc
  have hnone : (before.filter fun j => i.index < j.index) = [] := by
    refine List.filter_eq_nil_iff.mpr fun j hj hlt => ?_
    exact UInt64.lt_asymm (hbefore j hj i List.mem_cons_self) (of_decide_eq_true hlt)
  have hself : ((i :: after).filter fun j => i.index < j.index) =
      after.filter fun j => i.index < j.index :=
    List.filter_cons_of_neg fun hlt => UInt64.lt_irrefl _ (of_decide_eq_true hlt)
  have hall : (after.filter fun j => i.index < j.index) = after :=
    List.filter_eq_self.mpr fun j hj => decide_eq_true (hafter j hj)
  rw [hb, List.filter_append, hnone, hself, hall, List.nil_append]

/-! ## The two searches -/

namespace Analysis

variable {h k : Analysis} {a : Address} {b : Block} {i : Instruction} {n : UInt64}
  {r : CodeReference}

/-- `b` is the first block with an instruction at an address, and `i` its first one there. -/
structure Locates (h : Analysis) (a : Address) (b : Block) (i : Instruction) : Prop where
  block : FirstWith (·.HasInstructionAt a) h.blocks b
  instruction : FirstWith (·.address = a) b.instructions i

theorem blockAt?_eq_some_iff : h.blockAt? a = some b ↔ FirstWith (·.HasInstructionAt a) h.blocks b :=
  FirstWith.find?_eq_some_iff fun _ => Block.holds_iff

theorem blockAt?_eq_find? (h : Analysis) (a : Address) :
    h.blockAt? a = h.blocks.find? (·.HasInstructionAt a) := by
  unfold blockAt?
  congr 1
  funext b
  rw [Bool.eq_iff_iff, Block.holds_iff, decide_eq_true_iff]

/-- The instruction is searched for in the block that the other search finds. -/
theorem instructionAt?_eq (h : Analysis) (a : Address) :
    h.instructionAt? a = (h.blockAt? a).bind fun b => b.instructions.find? fun i => i.address == a := by
  unfold instructionAt? blockAt?
  rw [List.find?_flatMap]
  induction h.blocks with
  | nil => rfl
  | cons b bs ih =>
    rw [List.findSome?_cons, List.find?_cons]
    cases hb : b.holds a with
    | true =>
      -- the block holds the address, so the search in it succeeds
      cases hi : b.instructions.find? fun i => i.address == a with
      | some i => exact hi.symm
      | none =>
        obtain ⟨i, hmem, hia⟩ := List.any_eq_true.mp hb
        exact absurd hia (List.find?_eq_none.mp hi i hmem)
    | false =>
      cases hi : b.instructions.find? fun i => i.address == a with
      | some i =>
        have hmem := List.mem_of_find?_eq_some hi
        have hia := List.find?_some hi
        exact absurd (List.any_eq_true.mpr ⟨i, hmem, hia⟩) (Bool.not_eq_true _ ▸ hb)
      | none => exact ih

namespace Locates

theorem blockAt?_eq (hl : h.Locates a b i) : h.blockAt? a = some b :=
  blockAt?_eq_some_iff.mpr hl.block

theorem instructionAt?_eq (hl : h.Locates a b i) : h.instructionAt? a = some i := by
  rw [Analysis.instructionAt?_eq, hl.blockAt?_eq]
  exact (FirstWith.find?_eq_some_iff fun _ => beq_iff_eq).mpr hl.instruction

/-- What the code at a reference suggests is read off its block. -/
theorem lengthFromReference?_eq_some_iff (hl : h.Locates r.codeAddress b i) :
    h.lengthFromReference? r = some n ↔
      i.operation ∈ [.setVariable, .setField] ∧ 0 < n ∧ b.NextConstant i n := by
  have hassign : i.operation.isAssignment = true ↔ i.operation ∈ [.setVariable, .setField] := by
    cases i.operation with
    | setVariable => simp [Operation.isAssignment]
    | setField => simp [Operation.isAssignment]
    | compare => simp [Operation.isAssignment]
    | call => simp [Operation.isAssignment]
    | other => simp [Operation.isAssignment]
  unfold lengthFromReference?
  rw [hl.instructionAt?_eq, hl.blockAt?_eq, ← hassign, ← Block.findSome?_after_eq_some_iff]
  dsimp only
  cases hop : i.operation.isAssignment with
  | false => simp
  | true =>
    cases hnext : (b.after i.index).findSome? Instruction.firstConstant? with
    | none => simp
    | some m =>
      by_cases hpos : m > 0
      · simp only [Bool.not_true, Bool.false_eq_true, if_false, if_pos hpos, Option.some.injEq,
          true_and]
        exact ⟨fun he => ⟨he ▸ hpos, he⟩, And.right⟩
      · simp only [Bool.not_true, Bool.false_eq_true, if_false, if_neg hpos, reduceCtorEq,
          Option.some.injEq, true_and, false_iff]
        rintro ⟨hn, rfl⟩
        exact hpos hn

end Locates

/-- Either there is code at an address, or none of the searches finds any. -/
theorem locates_cases (h : Analysis) (a : Address) :
    (∃ b i, h.Locates a b i) ∨
      (∀ b ∈ h.blocks, ¬ b.HasInstructionAt a) ∧ h.blockAt? a = none ∧ h.instructionAt? a = none := by
  cases hb : h.blockAt? a with
  | none =>
    refine Or.inr ⟨fun b hmem hin => ?_, rfl, ?_⟩
    · exact List.find?_eq_none.mp hb b hmem (Block.holds_iff.mpr hin)
    · rw [instructionAt?_eq, hb]
      rfl
  | some b =>
    have hfirst := blockAt?_eq_some_iff.mp hb
    obtain ⟨j, hj, hja⟩ := hfirst.1
    cases hi : b.instructions.find? fun i => i.address == a with
    | none => exact absurd (beq_iff_eq.mpr hja) (List.find?_eq_none.mp hi j hj)
    | some i =>
      exact Or.inl ⟨b, i, hfirst, (FirstWith.find?_eq_some_iff fun _ => beq_iff_eq).mp hi⟩

/-- The searches see the blocks with an instruction at the address only. -/
theorem lengthFromReference?_congr
    (hk : k.blocks.filter (·.HasInstructionAt r.codeAddress) =
      h.blocks.filter (·.HasInstructionAt r.codeAddress)) :
    k.lengthFromReference? r = h.lengthFromReference? r := by
  have hblock : k.blockAt? r.codeAddress = h.blockAt? r.codeAddress := by
    rw [blockAt?_eq_find?, blockAt?_eq_find?]
    exact FirstWith.find?_eq_of_filter hk
  have hinstruction : k.instructionAt? r.codeAddress = h.instructionAt? r.codeAddress := by
    rw [instructionAt?_eq, instructionAt?_eq, hblock]
  unfold lengthFromReference?
  rw [hblock, hinstruction]

/-- **A suggested length comes from the block of the reference.** For every analysis and reference:
the two searches find the first block with an instruction at the code address and the first such
instruction in it, if there is one; a length is suggested just when that instruction stores a value
and the first constant after it in that block is that length and not zero; where indices rise along
the block, what is after the instruction is what stands after it there; and two analyses whose blocks
with an instruction at the address are the same, in the same order, suggest the same. -/
theorem length_within_block (h : Analysis) (r : CodeReference) :
    (∀ b i, h.Locates r.codeAddress b i →
      h.blockAt? r.codeAddress = some b ∧ h.instructionAt? r.codeAddress = some i ∧
      (∀ n, h.lengthFromReference? r = some n ↔
        i.operation ∈ [.setVariable, .setField] ∧ 0 < n ∧ b.NextConstant i n) ∧
      ((b.instructions.Pairwise fun i j => i.index < j.index) →
        ∀ before after, b.instructions = before ++ i :: after →
          (b.instructions.filter fun j => i.index < j.index) = after)) ∧
    ((∃ b i, h.Locates r.codeAddress b i) ∨
      (∀ b ∈ h.blocks, ¬ b.HasInstructionAt r.codeAddress) ∧ h.blockAt? r.codeAddress = none ∧
        h.instructionAt? r.codeAddress = none ∧ h.lengthFromReference? r = none) ∧
    ∀ k : Analysis, k.blocks.filter (·.HasInstructionAt r.codeAddress) =
        h.blocks.filter (·.HasInstructionAt r.codeAddress) →
      k.lengthFromReference? r = h.lengthFromReference? r := by
  refine ⟨?_, ?_, ?_⟩
  · intro b i hl
    exact ⟨hl.blockAt?_eq, hl.instructionAt?_eq, fun n => hl.lengthFromReference?_eq_some_iff,
      fun hasc before after hb => Block.filter_of_ascending hasc hb⟩
  · refine (locates_cases h r.codeAddress).imp_right ?_
    rintro ⟨hnone, hb, hi⟩
    refine ⟨hnone, hb, hi, ?_⟩
    unfold lengthFromReference?
    rw [hi]
  · intro k hk
    exact lengthFromReference?_congr hk

/-- Of two blocks with an instruction at one address the first counts. -/
example :
    ({ blocks := [
        ⟨0x3000, [⟨0, 0x3000, .other, [⟨.constant, none, some 5⟩]⟩]⟩,
        ⟨0x4000, [⟨1, 0x4000, .setVariable, []⟩, ⟨2, 0x4004, .other, [⟨.constant, none, some 7⟩]⟩]⟩,
        ⟨0x5000, [⟨3, 0x4000, .setField, []⟩, ⟨4, 0x5004, .other, [⟨.constant, none, some 9⟩]⟩]⟩]
      } : Analysis).lengthFromReference? ⟨0x4000, 0x1000⟩ = some 7 := by
  decide

end Analysis
end SliceRecovery
