import Mathlib.Algebra.Order.Ring.Nat
import Mathlib.Data.List.TakeWhile
import Mathlib.Tactic.IntervalCases
import Mathlib.Tactic.Ring
import SliceRecovery.Text.Numeral

/-!
# SliceRecovery.Proofs.Numerals -- what reads as a number

`Form` is the grammar of numerals with the numbers they denote, said without the reader. A text that
is refused is taken apart to say why: what stands behind the mark of the radix (`body`), what stands
behind the sign (`unsigned`) and the longest run of digits there (`run`). The reader goes from left
to right and gives up at the first digit that makes its number too large, so what counts is whether
that run denotes too much and not what follows it; `readDigits_append` is where this is proved, by
induction on the digits.
-/

namespace SliceRecovery.Text

/-! ## Trimming -/

/-- Trimming takes blanks off both ends, and all of them. -/
theorem trim_spec (cs : List Char) :
    (∃ l r, cs = l ++ trim cs ++ r ∧ ∀ c ∈ l ++ r, isBlank c = true) ∧
      (∀ c ∈ (trim cs).head?, isBlank c = false) ∧ ∀ c ∈ (trim cs).getLast?, isBlank c = false := by
  set ds := cs.dropWhile isBlank with hds
  have htrim : trim cs = (ds.reverse.dropWhile isBlank).reverse := rfl
  have hfront : cs.takeWhile isBlank ++ ds = cs := List.takeWhile_append_dropWhile
  have hback : trim cs ++ (ds.reverse.takeWhile isBlank).reverse = ds := by
    rw [htrim, ← List.reverse_append, List.takeWhile_append_dropWhile, List.reverse_reverse]
  refine ⟨⟨cs.takeWhile isBlank, (ds.reverse.takeWhile isBlank).reverse, ?_, ?_⟩, ?_, ?_⟩
  · rw [List.append_assoc, hback, hfront]
  · intro c hc
    rcases List.mem_append.mp hc with hc | hc
    · exact List.mem_takeWhile_imp hc
    · exact List.mem_takeWhile_imp (List.mem_reverse.mp hc)
  · intro c hc
    -- what is left after the blanks in front starts with no blank, and only its end is cut off
    have hhead : ds.head? = some c := by
      rw [← hback, List.head?_append, hc]
      rfl
    have hno := List.head?_dropWhile_not isBlank cs
    rw [← hds, hhead] at hno
    simpa using hno
  · intro c hc
    rw [htrim, List.getLast?_reverse] at hc
    have hno := List.head?_dropWhile_not isBlank ds.reverse
    rw [hc] at hno
    simpa using hno

/-- Trimming leaves a text without blanks as it is. -/
theorem trim_eq_self {cs : List Char} (h : ∀ c ∈ cs, isBlank c = false) : trim cs = cs := by
  have hself : ∀ ds : List Char, (∀ c ∈ ds, isBlank c = false) → ds.dropWhile isBlank = ds := by
    intro ds hds
    cases ds with
    | nil => rfl
    | cons c ds => rw [List.dropWhile_cons_of_neg (by simp [hds c List.mem_cons_self])]
  unfold trim
  rw [hself cs h, hself _ fun c hc => h c (List.mem_reverse.mp hc), List.reverse_reverse]

namespace Numeral

variable {radix m n d : Nat} {c : Char} {cs ds rest : List Char} {f : Fault}

/-! ## Digits -/

/-- The written digits of a radix up to sixteen, letters in either case. -/
def IsDigit (radix : Nat) (c : Char) (d : Nat) : Prop :=
  d < radix ∧ (c = d.digitChar ∨ c = d.digitChar.toUpper)

theorem hexDigit?_eq_some_iff : Hex.digit? c = some d ↔ IsDigit 16 c d := by
  constructor
  · intro h
    have hchar : Char.ofNat c.toNat = c := Char.ofNat_toNat c
    unfold Hex.digit? at h
    split at h
    · rename_i hc
      obtain ⟨hlow, hhigh⟩ : 48 ≤ c.toNat ∧ c.toNat ≤ 57 := hc
      cases h
      generalize c.toNat = k at *
      subst hchar
      interval_cases k <;> exact ⟨by decide, by decide⟩
    · split at h
      · rename_i hc
        obtain ⟨hlow, hhigh⟩ : 97 ≤ c.toNat ∧ c.toNat ≤ 102 := hc
        cases h
        generalize c.toNat = k at *
        subst hchar
        interval_cases k <;> exact ⟨by decide, by decide⟩
      · split at h
        · rename_i hc
          obtain ⟨hlow, hhigh⟩ : 65 ≤ c.toNat ∧ c.toNat ≤ 70 := hc
          cases h
          generalize c.toNat = k at *
          subst hchar
          interval_cases k <;> exact ⟨by decide, by decide⟩
        · cases h
  · rintro ⟨hd, hc⟩
    interval_cases d <;> rcases hc with rfl | rfl <;> decide

theorem digit?_eq_some_iff (hr : radix ≤ 16) : digit? radix c = some d ↔ IsDigit radix c d := by
  unfold digit?
  cases hx : Hex.digit? c with
  | none =>
    refine iff_of_false (fun h => nomatch h) fun ⟨hd, hc⟩ => ?_
    rw [hexDigit?_eq_some_iff.mpr ⟨by omega, hc⟩] at hx
    cases hx
  | some e =>
    have he := hexDigit?_eq_some_iff.mp hx
    dsimp only
    constructor
    · intro h
      split at h
      · cases h
        exact ⟨‹_›, he.2⟩
      · cases h
    · rintro ⟨hd, hc⟩
      have hsame := hexDigit?_eq_some_iff.mpr ⟨by omega, hc⟩
      rw [hx] at hsame
      cases hsame
      rw [if_pos hd]

/-- Digits of a radix, the most significant first, and the number that they denote. -/
inductive Denotes (radix : Nat) : List Char → Nat → Prop
  | nil : Denotes radix [] 0
  | cons {c : Char} {d : Nat} {ds : List Char} {n : Nat} :
      IsDigit radix c d → Denotes radix ds n →
      Denotes radix (c :: ds) (d * radix ^ ds.length + n)

theorem Denotes.unique (hr : radix ≤ 16) (hm : Denotes radix ds m) (hn : Denotes radix ds n) :
    m = n := by
  induction hm generalizing n with
  | nil =>
    cases hn
    rfl
  | cons hc _ ih =>
    cases hn with
    | cons hc' hn' =>
      have hsame := (digit?_eq_some_iff hr).mpr hc
      rw [(digit?_eq_some_iff hr).mpr hc'] at hsame
      cases hsame
      rw [ih hn']

theorem Denotes.append_digit (hn : Denotes radix ds n) (hc : IsDigit radix c d) :
    Denotes radix (ds ++ [c]) (radix * n + d) := by
  induction hn with
  | nil => simpa using Denotes.cons hc .nil
  | @cons c' d' ds n hc' _ ih =>
    have hsum : radix * (d' * radix ^ ds.length + n) + d =
        d' * radix ^ (ds ++ [c]).length + (radix * n + d) := by
      rw [List.length_append, List.length_singleton, pow_succ]
      ring
    rw [hsum]
    exact .cons hc' ih

theorem Denotes.isSome_digit? (hr : radix ≤ 16) (hn : Denotes radix ds n) :
    ∀ c ∈ ds, (digit? radix c).isSome = true := by
  induction hn with
  | nil => exact fun c hc => nomatch hc
  | cons hc _ ih =>
    refine List.forall_mem_cons.mpr ⟨?_, ih⟩
    rw [(digit?_eq_some_iff hr).mpr hc]
    rfl

/-- Any digits denote a number. -/
theorem exists_denotes (hr : radix ≤ 16) (h : ∀ c ∈ ds, (digit? radix c).isSome = true) :
    ∃ n, Denotes radix ds n := by
  induction ds with
  | nil => exact ⟨0, .nil⟩
  | cons c ds ih =>
    obtain ⟨hc, hds⟩ := List.forall_mem_cons.mp h
    obtain ⟨d, hd⟩ := Option.isSome_iff_exists.mp hc
    obtain ⟨n, hn⟩ := ih hds
    exact ⟨_, .cons ((digit?_eq_some_iff hr).mp hd) hn⟩

/-- The digits that a number is written with denote it. -/
theorem denotes_toDigits (h2 : 1 < radix) (n : Nat) : Denotes radix (Nat.toDigits radix n) n := by
  induction n using Nat.strongRecOn with
  | ind n ih =>
    by_cases hn : n < radix
    · rw [Nat.toDigits_of_lt_base hn]
      have hone : Denotes radix [n.digitChar] (n * radix ^ 0 + 0) := .cons ⟨hn, Or.inl rfl⟩ .nil
      simpa using hone
    · rw [Nat.toDigits_of_base_le h2 (by omega)]
      have hq := ih (n / radix) (Nat.div_lt_self (by omega) h2)
      have hdigit : IsDigit radix (n % radix).digitChar (n % radix) :=
        ⟨Nat.mod_lt n (by omega), Or.inl rfl⟩
      have happend := hq.append_digit hdigit
      rwa [Nat.div_add_mod] at happend

/-- The case of the digits makes no difference. -/
theorem Denotes.map_toUpper (hr : radix ≤ 16) (hn : Denotes radix ds n) :
    Denotes radix (ds.map Char.toUpper) n := by
  have htwice : ∀ d < 16, d.digitChar.toUpper.toUpper = d.digitChar.toUpper := by decide
  induction hn with
  | nil => exact .nil
  | @cons c d ds n hc _ ih =>
    have hup : IsDigit radix c.toUpper d := by
      obtain ⟨hd, rfl | rfl⟩ := hc
      · exact ⟨hd, Or.inr rfl⟩
      · exact ⟨hd, Or.inr (htwice d (Nat.lt_of_lt_of_le hd hr))⟩
    have hcons := Denotes.cons hup ih
    rwa [List.length_map] at hcons

/-! ## Reading digits -/

/-- Digits that follow a number below 2^64 are read up to the first that makes it too large. -/
theorem readDigits_append (hr : radix ≤ 16) (hds : Denotes radix ds n) (hm : m < Word.span) :
    readDigits radix m (ds ++ rest) =
      if m * radix ^ ds.length + n < Word.span then
        readDigits radix (m * radix ^ ds.length + n) rest
      else .error .tooLarge := by
  induction hds generalizing m with
  | nil => simp [hm]
  | @cons c d ds n hc hds ih =>
    have hsum : m * radix ^ (c :: ds).length + (d * radix ^ ds.length + n) =
        (radix * m + d) * radix ^ ds.length + n := by
      rw [List.length_cons, pow_succ]
      ring
    rw [List.cons_append, readDigits, (digit?_eq_some_iff hr).mpr hc, hsum]
    dsimp only
    split
    · rename_i hlt
      exact ih hlt
    · rename_i hge
      -- the number is too large already, and further digits do not make it smaller
      have hpos : 0 < radix ^ ds.length := Nat.pow_pos (by have := hc.1; omega)
      have hle := Nat.le_mul_of_pos_right (radix * m + d) hpos
      rw [if_neg (by omega)]

/-- The longest run of digits in front of a text. -/
def run (radix : Nat) (cs : List Char) : List Char :=
  cs.takeWhile fun c => (digit? radix c).isSome

theorem exists_denotes_run (hr : radix ≤ 16) (cs : List Char) :
    ∃ n, Denotes radix (run radix cs) n :=
  exists_denotes hr fun _ hc =>
    List.mem_takeWhile_imp (p := fun c => (digit? radix c).isSome) hc

theorem run_eq_self (hr : radix ≤ 16) (hcs : Denotes radix cs n) : run radix cs = cs :=
  List.takeWhile_eq_self_iff.mpr (hcs.isSome_digit? hr)

/-- What reading digits comes to follows from the longest run in front. -/
theorem readDigits_eq (hr : radix ≤ 16) (hrun : Denotes radix (run radix cs) n) :
    readDigits radix 0 cs =
      if n < Word.span then if run radix cs = cs then .ok (UInt64.ofNat n) else .error .badDigit
      else .error .tooLarge := by
  have hsplit : run radix cs ++ cs.dropWhile (fun c => (digit? radix c).isSome) = cs :=
    List.takeWhile_append_dropWhile
  have hread : readDigits radix 0 (run radix cs ++ cs.dropWhile fun c => (digit? radix c).isSome) =
      _ := readDigits_append hr hrun (by decide)
  rw [hsplit, Nat.zero_mul, Nat.zero_add] at hread
  rw [hread]
  refine if_congr Iff.rfl ?_ rfl
  cases hrest : cs.dropWhile fun c => (digit? radix c).isSome with
  | nil =>
    rw [hrest, List.append_nil] at hsplit
    rw [if_pos hsplit, readDigits]
  | cons c rest =>
    have hc : digit? radix c = none := by
      have hno := List.head?_dropWhile_not (fun c => (digit? radix c).isSome) cs
      rw [hrest] at hno
      simpa using hno
    rw [if_neg, readDigits, hc]
    intro hself
    rw [hrest, hself] at hsplit
    exact List.cons_ne_nil _ _ (List.append_right_eq_self.mp hsplit)

/-! ## Signs and marks -/

/-- What stands behind the sign. -/
def unsigned : List Char → List Char
  | '+' :: cs => cs
  | cs => cs

/-- The radix of a text and what stands behind its mark. -/
def body : List Char → Nat × List Char
  | '0' :: 'x' :: cs => (16, cs)
  | '0' :: 'X' :: cs => (16, cs)
  | cs => (10, cs)

theorem body_of_mark {x : Char} (hx : x = 'x' ∨ x = 'X') : body ('0' :: x :: cs) = (16, cs) := by
  rcases hx with rfl | rfl <;> rfl

/-- A text has the mark of radix 16 or is read in radix 10 as it is. -/
theorem body_cases (cs : List Char) :
    (∃ x rest, (x = 'x' ∨ x = 'X') ∧ cs = '0' :: x :: rest) ∨
      body cs = (10, cs) ∧ readTrimmed cs = readSigned 10 cs := by
  fun_cases body cs with
  | case1 rest => exact Or.inl ⟨'x', rest, Or.inl rfl, rfl⟩
  | case2 rest => exact Or.inl ⟨'X', rest, Or.inr rfl, rfl⟩
  | case3 _ hlower hupper =>
    refine Or.inr ⟨rfl, ?_⟩
    unfold readTrimmed
    split
    · exact (hlower _ rfl).elim
    · exact (hupper _ rfl).elim
    · rfl

theorem body_radix (cs : List Char) : (body cs).1 ≤ 16 := by
  rcases body_cases cs with ⟨x, rest, hx, rfl⟩ | ⟨hbody, -⟩
  · rw [body_of_mark hx]
  · rw [hbody]
    exact (by decide : 10 ≤ 16)

theorem readTrimmed_eq_readSigned (cs : List Char) :
    readTrimmed cs = readSigned (body cs).1 (body cs).2 := by
  rcases body_cases cs with ⟨x, rest, rfl | rfl, rfl⟩ | ⟨hbody, hread⟩
  · rfl
  · rfl
  · rw [hread, hbody]

theorem readSigned_eq (cs : List Char) :
    readSigned radix cs =
      if cs = [] then .error .empty
      else if unsigned cs = [] then .error .badDigit
      else readDigits radix 0 (unsigned cs) := by
  fun_cases readSigned radix cs with
  | case1 => rfl
  | case2 => rfl
  | case3 rest hne =>
    have hrest : unsigned ('+' :: rest) = rest := rfl
    rw [if_neg (List.cons_ne_nil _ _), hrest, if_neg hne]
  | case4 _ hnil _ hsign =>
    have hself : unsigned cs = cs := by
      unfold unsigned
      split
      · exact (hsign _ rfl).elim
      · rfl
    rw [hself, if_neg hnil, if_neg hnil]

/-- What reading comes to follows from the parts of a text. -/
theorem readTrimmed_eq (hrun : Denotes (body cs).1 (run (body cs).1 (unsigned (body cs).2)) n) :
    readTrimmed cs =
      if (body cs).2 = [] then .error .empty
      else if n < Word.span then
        if unsigned (body cs).2 ≠ [] ∧
            run (body cs).1 (unsigned (body cs).2) = unsigned (body cs).2 then
          .ok (UInt64.ofNat n)
        else .error .badDigit
      else .error .tooLarge := by
  rw [readTrimmed_eq_readSigned, readSigned_eq]
  refine if_congr Iff.rfl rfl ?_
  split
  · rename_i hnil
    -- without digits the run is empty and denotes zero
    rw [hnil] at hrun
    cases hrun
    rw [if_pos (by decide), if_neg (fun h => h.1 hnil)]
  · rename_i hne
    rw [readDigits_eq (body_radix cs) hrun]
    simp only [ne_eq, hne, not_false_eq_true, true_and]

/-! ## The grammar -/

/-- A sign is a plus or is left out. -/
def IsSign (sign : List Char) : Prop := sign = [] ∨ sign = ['+']

/-- Numerals and the numbers that they denote. -/
inductive Form : List Char → Nat → Prop
  | decimal {sign ds : List Char} {n : Nat} :
      IsSign sign → ds ≠ [] → Denotes 10 ds n → Form (sign ++ ds) n
  | hex {x : Char} {sign ds : List Char} {n : Nat} :
      x = 'x' ∨ x = 'X' → IsSign sign → ds ≠ [] → Denotes 16 ds n →
      Form ('0' :: x :: (sign ++ ds)) n

theorem exists_sign (cs : List Char) : ∃ sign, IsSign sign ∧ cs = sign ++ unsigned cs := by
  unfold unsigned
  split
  · exact ⟨['+'], Or.inr rfl, rfl⟩
  · exact ⟨[], Or.inl rfl, rfl⟩

/-- A sign in front of digits is told from them. -/
theorem unsigned_append {sign : List Char} (hr : radix ≤ 16) (hsign : IsSign sign)
    (hds : Denotes radix ds n) : unsigned (sign ++ ds) = ds := by
  rcases hsign with rfl | rfl
  · rw [List.nil_append]
    unfold unsigned
    split
    · have hplus := hds.isSome_digit? hr '+' List.mem_cons_self
      unfold digit? at hplus
      rw [show Hex.digit? '+' = none by decide] at hplus
      cases hplus
    · rfl
  · rfl

/-- Decimal digits, with or without a sign, have no mark of another radix. -/
theorem body_of_decimal {sign : List Char} (hsign : IsSign sign) (hds : Denotes 10 ds n) :
    body (sign ++ ds) = (10, sign ++ ds) := by
  rcases body_cases (sign ++ ds) with ⟨x, rest, hx, heq⟩ | ⟨hbody, -⟩
  · rcases hsign with rfl | rfl
    · have hdigit := hds.isSome_digit? (by decide) x
      rw [List.nil_append] at heq
      rw [heq] at hdigit
      rcases hx with rfl | rfl <;> exact absurd (hdigit (by simp)) (by decide)
    · exact absurd (List.cons.inj heq).1 (by decide)
  · exact hbody

/-- A text is a numeral just if digits stand behind its mark and sign, and nothing else. -/
theorem form_iff :
    Form cs n ↔ unsigned (body cs).2 ≠ [] ∧ Denotes (body cs).1 (unsigned (body cs).2) n := by
  constructor
  · rintro (⟨hsign, hne, hds⟩ | ⟨hx, hsign, hne, hds⟩)
    · rw [body_of_decimal hsign hds]
      dsimp only
      rw [unsigned_append (by decide) hsign hds]
      exact ⟨hne, hds⟩
    · rw [body_of_mark hx]
      dsimp only
      rw [unsigned_append (by decide) hsign hds]
      exact ⟨hne, hds⟩
  · rintro ⟨hne, hds⟩
    rcases body_cases cs with ⟨x, rest, hx, rfl⟩ | ⟨hbody, -⟩
    · rw [body_of_mark hx] at hne hds
      obtain ⟨sign, hsign, hrest⟩ := exists_sign rest
      rw [hrest]
      exact .hex hx hsign hne hds
    · rw [hbody] at hne hds
      obtain ⟨sign, hsign, hcs⟩ := exists_sign cs
      rw [hcs]
      exact .decimal hsign hne hds

/-! ## Reading -/

/-- What reading comes to, of which exactly one is the case. -/
theorem readTrimmed_cases (cs : List Char) :
    ∃ n, Denotes (body cs).1 (run (body cs).1 (unsigned (body cs).2)) n ∧
      ((body cs).2 = [] ∧ readTrimmed cs = .error .empty ∨
        (body cs).2 ≠ [] ∧ Word.span ≤ n ∧ readTrimmed cs = .error .tooLarge ∨
        (body cs).2 ≠ [] ∧ n < Word.span ∧ Form cs n ∧ readTrimmed cs = .ok (UInt64.ofNat n) ∨
        (body cs).2 ≠ [] ∧ n < Word.span ∧ (∀ m, ¬ Form cs m) ∧
          readTrimmed cs = .error .badDigit) := by
  have hr := body_radix cs
  obtain ⟨n, hrun⟩ := exists_denotes_run hr (unsigned (body cs).2)
  refine ⟨n, hrun, ?_⟩
  rw [readTrimmed_eq hrun]
  by_cases hnil : (body cs).2 = []
  · exact Or.inl ⟨hnil, if_pos hnil⟩
  rw [if_neg hnil]
  by_cases hlt : n < Word.span
  · rw [if_pos hlt]
    by_cases hall : unsigned (body cs).2 ≠ [] ∧
        run (body cs).1 (unsigned (body cs).2) = unsigned (body cs).2
    · rw [if_pos hall]
      rw [hall.2] at hrun
      exact Or.inr (Or.inr (Or.inl ⟨hnil, hlt, form_iff.mpr ⟨hall.1, hrun⟩, rfl⟩))
    · rw [if_neg hall]
      refine Or.inr (Or.inr (Or.inr ⟨hnil, hlt, fun m hm => hall ?_, rfl⟩))
      obtain ⟨hne, hds⟩ := form_iff.mp hm
      exact ⟨hne, run_eq_self hr hds⟩
  · rw [if_neg hlt]
    exact Or.inr (Or.inl ⟨hnil, Nat.not_lt.mp hlt, rfl⟩)

/-- A text is a numeral for one number at most, which its longest run of digits denotes. -/
theorem Form.eq_of_run (hcs : Form cs m)
    (hrun : Denotes (body cs).1 (run (body cs).1 (unsigned (body cs).2)) n) : m = n := by
  have hr := body_radix cs
  obtain ⟨-, hds⟩ := form_iff.mp hcs
  rw [run_eq_self hr hds] at hrun
  exact hds.unique hr hrun

/-- No character of a numeral is blank. -/
theorem Form.not_isBlank (hcs : Form cs n) : ∀ c ∈ cs, isBlank c = false := by
  have hdigit : ∀ {radix : Nat} {ds : List Char}, radix ≤ 16 → Denotes radix ds n →
      ∀ c ∈ ds, isBlank c = false := by
    intro radix ds hr hds c hc
    obtain ⟨d, hd⟩ := Option.isSome_iff_exists.mp (hds.isSome_digit? hr c hc)
    obtain ⟨hd, hc⟩ := (digit?_eq_some_iff hr).mp hd
    have hd : d < 16 := Nat.lt_of_lt_of_le hd hr
    interval_cases d <;> rcases hc with rfl | rfl <;> decide
  have hsigned : ∀ {radix : Nat} {sign ds : List Char}, radix ≤ 16 → IsSign sign →
      Denotes radix ds n → ∀ c ∈ sign ++ ds, isBlank c = false := by
    intro radix sign ds hr hsign hds c hc
    rcases List.mem_append.mp hc with hc | hc
    · rcases hsign with rfl | rfl
      · cases hc
      · rw [List.mem_singleton.mp hc]
        decide
    · exact hdigit hr hds c hc
  cases hcs with
  | decimal hsign _ hds => exact hsigned (by decide) hsign hds
  | hex hx hsign _ hds =>
    refine List.forall_mem_cons.mpr ⟨by decide, List.forall_mem_cons.mpr ⟨?_, ?_⟩⟩
    · rcases hx with rfl | rfl <;> decide
    · exact hsigned (by decide) hsign hds

theorem readTrimmed_eq_ok_iff {w : UInt64} : readTrimmed cs = .ok w ↔ Form cs w.toNat := by
  have hlt : w.toNat < Word.span := w.toNat_lt
  obtain ⟨n, hrun, hcase⟩ := readTrimmed_cases cs
  constructor
  · intro h
    rcases hcase with ⟨-, hread⟩ | ⟨-, -, hread⟩ | ⟨-, hn, hform, hread⟩ | ⟨-, -, -, hread⟩
    all_goals
      rw [h] at hread
      cases hread
    rwa [UInt64.toNat_ofNat_of_lt' hn]
  · intro h
    obtain rfl := h.eq_of_run hrun
    rcases hcase with ⟨hnil, -⟩ | ⟨-, hge, -⟩ | ⟨-, -, -, hread⟩ | ⟨-, -, hno, -⟩
    · have hne := (form_iff.mp h).1
      rw [hnil] at hne
      exact absurd rfl hne
    · exact absurd hlt (Nat.not_lt.mpr hge)
    · rw [hread, UInt64.ofNat_toNat]
    · exact absurd h (hno _)

theorem readTrimmed_eq_empty_iff : readTrimmed cs = .error .empty ↔ (body cs).2 = [] := by
  obtain ⟨n, hrun, hcase⟩ := readTrimmed_cases cs
  rcases hcase with ⟨hnil, hread⟩ | ⟨hne, -, hread⟩ | ⟨hne, -, -, hread⟩ | ⟨hne, -, -, hread⟩
  all_goals rw [hread]
  · exact iff_of_true rfl hnil
  all_goals exact iff_of_false (fun h => nomatch h) hne

theorem readTrimmed_eq_tooLarge_iff :
    readTrimmed cs = .error .tooLarge ↔
      ∃ n, Denotes (body cs).1 (run (body cs).1 (unsigned (body cs).2)) n ∧ Word.span ≤ n := by
  obtain ⟨n, hrun, hcase⟩ := readTrimmed_cases cs
  have hunique : (∃ m, Denotes (body cs).1 (run (body cs).1 (unsigned (body cs).2)) m ∧
      Word.span ≤ m) ↔ Word.span ≤ n := by
    constructor
    · rintro ⟨m, hm, hge⟩
      rwa [hrun.unique (body_radix cs) hm]
    · exact fun hge => ⟨n, hrun, hge⟩
  rw [hunique]
  rcases hcase with ⟨hnil, hread⟩ | ⟨-, hge, hread⟩ | ⟨-, hlt, -, hread⟩ | ⟨-, hlt, -, hread⟩
  all_goals rw [hread]
  · -- where nothing stands the run is empty and denotes zero
    rw [hnil] at hrun
    cases hrun
    exact iff_of_false (fun h => nomatch h) (by decide)
  · exact iff_of_true rfl hge
  all_goals exact iff_of_false (fun h => nomatch h) (Nat.not_le.mpr hlt)

/-- The digits are at fault just if nothing else is. -/
theorem readTrimmed_eq_badDigit_iff :
    readTrimmed cs = .error .badDigit ↔
      (∀ w : UInt64, ¬ Form cs w.toNat) ∧ (body cs).2 ≠ [] ∧
        ¬ ∃ n, Denotes (body cs).1 (run (body cs).1 (unsigned (body cs).2)) n ∧
          Word.span ≤ n := by
  rw [← readTrimmed_eq_tooLarge_iff, ne_eq, ← readTrimmed_eq_empty_iff]
  simp only [← readTrimmed_eq_ok_iff]
  cases readTrimmed cs with
  | ok w => simp
  | error f => cases f <;> simp

/-- A numeral without anything around it is read as what it denotes. -/
theorem parse_of_form {text : String} {w : UInt64} (h : Form text.toList w.toNat) :
    parse text = .ok w := by
  unfold parse read
  rw [trim_eq_self h.not_isBlank, readTrimmed_eq_ok_iff.mpr h]
  rfl

/-- **Numerals are read exactly.** Every text is blanks, a middle without blanks at its ends, and
blanks. It is read as a number just if the middle is a numeral for it. It is refused as empty just if
nothing stands in the middle or behind its mark, as too large just if the longest run of digits
behind mark and sign denotes 2^64 or more, and for a bad digit in every other case; the report shows
the text as it was given. The decimal form of a word and its two hexadecimal ones are read as it. -/
theorem numerals_exact :
    (∀ text : String, ∃ l cs r, text.toList = l ++ cs ++ r ∧ (∀ c ∈ l ++ r, isBlank c = true) ∧
      (∀ c ∈ cs.head?, isBlank c = false) ∧ (∀ c ∈ cs.getLast?, isBlank c = false) ∧
      (∀ w, read text = .ok w ↔ Form cs w.toNat) ∧
      (read text = .error .empty ↔ (body cs).2 = []) ∧
      (read text = .error .tooLarge ↔
        ∃ n, Denotes (body cs).1 (run (body cs).1 (unsigned (body cs).2)) n ∧ Word.span ≤ n) ∧
      (read text = .error .badDigit ↔
        (∀ w : UInt64, ¬ Form cs w.toNat) ∧ (body cs).2 ≠ [] ∧
          ¬ ∃ n, Denotes (body cs).1 (run (body cs).1 (unsigned (body cs).2)) n ∧
            Word.span ≤ n) ∧
      parse text = (read text).mapError fun f => s!"invalid number '{text}': {f.message}") ∧
    ∀ w : UInt64, parse (toString w) = .ok w ∧
      parse ("0x" ++ String.ofList (Hex.lower w.toNat)) = .ok w ∧
      parse ("0x" ++ String.ofList (Hex.upper w.toNat)) = .ok w := by
  refine ⟨fun text => ?_, fun w => ?_⟩
  · obtain ⟨⟨l, r, hcut, hblank⟩, hhead, hlast⟩ := trim_spec text.toList
    exact ⟨l, trim text.toList, r, hcut, hblank, hhead, hlast, fun _ => readTrimmed_eq_ok_iff,
      readTrimmed_eq_empty_iff, readTrimmed_eq_tooLarge_iff, readTrimmed_eq_badDigit_iff, rfl⟩
  · have hten : Denotes 10 (Nat.toDigits 10 w.toNat) w.toNat := denotes_toDigits (by decide) _
    have hsixteen : Denotes 16 (Nat.toDigits 16 w.toNat) w.toNat := denotes_toDigits (by decide) _
    have hne : Nat.toDigits 16 w.toNat ≠ [] := Nat.toDigits_ne_nil
    have hmarked : ∀ ds : List Char,
        ("0x" ++ String.ofList ds).toList = '0' :: 'x' :: ([] ++ ds) := by
      intro ds
      rw [String.toList_append]
      exact congrArg (['0', 'x'] ++ ·) String.toList_ofList
    refine ⟨parse_of_form ?_, parse_of_form ?_, parse_of_form ?_⟩
    · rw [show (toString w).toList = [] ++ Nat.toDigits 10 w.toNat from Nat.toList_repr]
      exact .decimal (Or.inl rfl) Nat.toDigits_ne_nil hten
    · rw [hmarked]
      exact .hex (Or.inl rfl) (Or.inl rfl) hne hsixteen
    · rw [hmarked]
      refine .hex (Or.inl rfl) (Or.inl rfl) ?_ (hsixteen.map_toUpper (by decide))
      exact fun h => hne (List.map_eq_nil_iff.mp h)

end Numeral
end SliceRecovery.Text
