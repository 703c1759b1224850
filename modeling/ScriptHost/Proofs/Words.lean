import Mathlib.Data.List.TakeWhile
import ScriptHost.Text.Blank
import ScriptHost.Text.LetterCase

/-!
# Words

A text that is not blank is a first word, with blanks in front of it and something behind it that is
none or begins with a blank (`exists_words`). So the cuts that are made at words tell the first word
and go on with what is behind it (`splitWords_append`), whatever blanks are around. The lower case of
a text has a blank where the text has one, so words are what has a word for its lower
case (`isWord_lower_iff`).
-/
namespace ScriptHost.Text

/-- Nothing but blanks. -/
def AllBlank (cs : List Char) : Prop :=
  ∀ c ∈ cs, isBlank c

-- Told by the list: characters are finitely many, so another instance would go through them all.
instance (cs : List Char) : Decidable (AllBlank cs) :=
  List.decidableBAll _ cs

/-- Characters without a blank among them, and not none. -/
def IsWord (cs : List Char) : Prop :=
  cs ≠ [] ∧ ∀ c ∈ cs, isBlank c = false

instance (cs : List Char) : Decidable (IsWord cs) :=
  @instDecidableAnd _ _ _ (List.decidableBAll _ cs)

/-- Nothing, or a blank and anything: what can come behind a word. -/
def BeginsBlank (cs : List Char) : Prop :=
  ∀ c ∈ cs.head?, isBlank c

/-- The first word of a text, nothing where the text is blank. -/
def firstWord (cs : List Char) : List Char :=
  (cs.dropWhile isBlank).takeWhile (!isBlank ·)

/-- What comes behind the first word of a text. -/
def afterWord (cs : List Char) : List Char :=
  (cs.dropWhile isBlank).dropWhile (!isBlank ·)

variable {front word rest back cs : List Char}

/-! ### Runs of blanks -/

theorem allBlank_nil : AllBlank [] :=
  List.forall_mem_nil _

theorem dropWhile_eq_nil_iff_allBlank : cs.dropWhile isBlank = [] ↔ AllBlank cs :=
  List.dropWhile_eq_nil_iff

theorem dropWhile_append_blank (hf : AllBlank front) (cs : List Char) :
    (front ++ cs).dropWhile isBlank = cs.dropWhile isBlank :=
  List.dropWhile_append_of_pos hf

theorem AllBlank.beginsBlank (h : AllBlank cs) : BeginsBlank cs :=
  fun c hc => h c (List.mem_of_mem_head? hc)

theorem BeginsBlank.ne_nil_of_word (h : BeginsBlank (front ++ (word ++ rest))) (hw : IsWord word) :
    front ≠ [] := by
  rintro rfl
  obtain ⟨c, more, rfl⟩ := List.exists_cons_of_ne_nil hw.1
  exact absurd (h c rfl) (by simp [hw.2 c List.mem_cons_self])

theorem AllBlank.beginsBlank_append (h : AllBlank front) (hr : front = [] → BeginsBlank rest) :
    BeginsBlank (front ++ rest) := by
  cases front with
  | nil => exact hr rfl
  | cons c front =>
    intro d hd
    obtain rfl : c = d := Option.some.inj hd
    exact h c List.mem_cons_self

theorem BeginsBlank.takeWhile_eq_nil (h : BeginsBlank cs) : cs.takeWhile (!isBlank ·) = [] := by
  cases cs with
  | nil => rfl
  | cons c cs => exact List.takeWhile_cons_of_neg (by simp [h c rfl])

theorem BeginsBlank.dropWhile_eq_self (h : BeginsBlank cs) : cs.dropWhile (!isBlank ·) = cs := by
  cases cs with
  | nil => rfl
  | cons c cs => exact List.dropWhile_cons_of_neg (by simp [h c rfl])

/-! ### The first word -/

/-- No blank is dropped in front of a word. -/
theorem IsWord.dropWhile_append (h : IsWord word) (rest : List Char) :
    (word ++ rest).dropWhile isBlank = word ++ rest := by
  obtain ⟨c, cs, rfl⟩ := List.exists_cons_of_ne_nil h.1
  exact List.dropWhile_cons_of_neg (by simp [h.2 c List.mem_cons_self])

theorem firstWord_append (hf : AllBlank front) (hw : IsWord word) (hr : BeginsBlank rest) :
    firstWord (front ++ (word ++ rest)) = word := by
  rw [firstWord, dropWhile_append_blank hf, hw.dropWhile_append,
    List.takeWhile_append_of_pos (by simpa using hw.2), hr.takeWhile_eq_nil, List.append_nil]

theorem afterWord_append (hf : AllBlank front) (hw : IsWord word) (hr : BeginsBlank rest) :
    afterWord (front ++ (word ++ rest)) = rest := by
  rw [afterWord, dropWhile_append_blank hf, hw.dropWhile_append,
    List.dropWhile_append_of_pos (by simpa using hw.2), hr.dropWhile_eq_self]

theorem beginsBlank_afterWord (cs : List Char) : BeginsBlank (afterWord cs) := by
  intro c hc
  have hn := List.head?_dropWhile_not (!isBlank ·) (cs.dropWhile isBlank)
  rw [← afterWord, Option.mem_def.mp hc] at hn
  simpa using hn

theorem isWord_firstWord (h : ¬ AllBlank cs) : IsWord (firstWord cs) := by
  refine ⟨?_, fun c hc => by simpa using List.mem_takeWhile_imp hc⟩
  have hne : cs.dropWhile isBlank ≠ [] := mt dropWhile_eq_nil_iff_allBlank.mp h
  obtain ⟨c, more, hc⟩ := List.exists_cons_of_ne_nil hne
  have hb : isBlank c = false := by simpa [hc] using List.head?_dropWhile_not isBlank cs
  rw [firstWord, hc, List.takeWhile_cons_of_pos (by simp [hb])]
  exact List.cons_ne_nil _ _

theorem IsWord.not_allBlank (hw : IsWord word) (front rest : List Char) :
    ¬ AllBlank (front ++ (word ++ rest)) := by
  obtain ⟨c, more, rfl⟩ := List.exists_cons_of_ne_nil hw.1
  intro h
  exact absurd (h c (by simp)) (by simp [hw.2 c List.mem_cons_self])

/-- A text that is not blank is a word, with blanks in front and something behind. -/
theorem exists_words (h : ¬ AllBlank cs) : ∃ front word rest,
    cs = front ++ (word ++ rest) ∧ AllBlank front ∧ IsWord word ∧ BeginsBlank rest := by
  refine ⟨cs.takeWhile isBlank, firstWord cs, afterWord cs, ?_,
    fun _ hc => List.mem_takeWhile_imp hc, isWord_firstWord h, beginsBlank_afterWord cs⟩
  rw [firstWord, afterWord, List.takeWhile_append_dropWhile, List.takeWhile_append_dropWhile]

/-! ### Cutting off words -/

theorem splitWords_of_allBlank (n : Nat) (h : AllBlank cs) : splitWords n cs = [] :=
  splitWords.eq_1 cs n (dropWhile_eq_nil_iff_allBlank.mpr h)

/-- A word in front is told first, and then what is behind it is cut. -/
theorem splitWords_append (n : Nat) (hf : AllBlank front) (hw : IsWord word)
    (hr : BeginsBlank rest) :
    splitWords (n + 1) (front ++ (word ++ rest)) = word :: splitWords n rest := by
  have hne : (front ++ (word ++ rest)).dropWhile isBlank ≠ [] := by
    rw [dropWhile_append_blank hf, hw.dropWhile_append]
    exact List.append_ne_nil_of_left_ne_nil hw.1 rest
  rw [splitWords.eq_3 _ _ hne]
  exact congrArg₂ (· :: splitWords n ·) (firstWord_append hf hw hr) (afterWord_append hf hw hr)

/-- Where no word is cut off any more, all the rest is told without the blanks in front of it. -/
theorem headD_splitWords_zero (cs : List Char) :
    (splitWords 0 cs).headD [] = cs.dropWhile isBlank := by
  by_cases h : cs.dropWhile isBlank = []
  · rw [splitWords.eq_1 cs 0 h, h]
    rfl
  · rw [splitWords.eq_2 cs h]
    rfl

/-! ### Trimming -/

theorem trimEnd_append_blank (hb : AllBlank back) (cs : List Char) :
    trimEnd (cs ++ back) = trimEnd cs := by
  have hr : AllBlank back.reverse := fun c hc => hb c (List.mem_reverse.mp hc)
  rw [trimEnd, List.reverse_append, dropWhile_append_blank hr, trimEnd]

theorem trimEnd_prefix (cs : List Char) : trimEnd cs <+: cs := by
  have hs := List.reverse_prefix.mpr (List.dropWhile_suffix (l := cs.reverse) isBlank)
  rwa [List.reverse_reverse] at hs

theorem BeginsBlank.trimEnd (h : BeginsBlank cs) : BeginsBlank (trimEnd cs) := by
  intro c hc
  obtain ⟨more, hm⟩ := trimEnd_prefix cs
  refine h c ?_
  rw [← hm, List.head?_append, Option.mem_def.mp hc]
  rfl

/-- What ends in a word is left alone. -/
theorem trimEnd_append_word (front rest : List Char) (hw : IsWord word) :
    trimEnd (front ++ (word ++ rest)) = front ++ (word ++ trimEnd rest) := by
  have hword : IsWord word.reverse :=
    ⟨by simpa using hw.1, fun c hc => hw.2 c (List.mem_reverse.mp hc)⟩
  have hd : (word.reverse ++ front.reverse).dropWhile isBlank = word.reverse ++ front.reverse :=
    hword.dropWhile_append _
  by_cases h : AllBlank rest.reverse
  · rw [trimEnd, trimEnd, dropWhile_eq_nil_iff_allBlank.mpr h, List.reverse_append,
      List.reverse_append, List.append_assoc, dropWhile_append_blank h, hd]
    simp
  · have hne : (rest.reverse.dropWhile isBlank).isEmpty = false := by
      simpa [← dropWhile_eq_nil_iff_allBlank] using h
    rw [trimEnd, trimEnd, List.reverse_append, List.reverse_append, List.append_assoc,
      List.dropWhile_append, hne]
    simp

theorem trimEnd_of_allBlank (h : AllBlank cs) : trimEnd cs = [] := by
  have hr : AllBlank cs.reverse := fun c hc => h c (List.mem_reverse.mp hc)
  rw [trimEnd, dropWhile_eq_nil_iff_allBlank.mpr hr]
  rfl

theorem trim_of_allBlank (h : AllBlank cs) : trim cs = [] := by
  rw [trim, dropWhile_eq_nil_iff_allBlank.mpr h]
  rfl

/-- Trimming leaves what is between the first word of a text and the blanks at its end. -/
theorem trim_eq_of_not_allBlank (h : ¬ AllBlank cs) :
    trim cs = firstWord cs ++ trimEnd (afterWord cs) := by
  obtain ⟨front, word, rest, rfl, hf, hw, hr⟩ := exists_words h
  rw [firstWord_append hf hw hr, afterWord_append hf hw hr, trim, dropWhile_append_blank hf,
    hw.dropWhile_append]
  exact trimEnd_append_word [] rest hw

/-- The two ends of a text may be trimmed in any order. -/
theorem dropWhile_trimEnd (cs : List Char) : (trimEnd cs).dropWhile isBlank = trim cs := by
  by_cases h : AllBlank cs
  · rw [trimEnd_of_allBlank h, trim_of_allBlank h]
    rfl
  · rw [trim_eq_of_not_allBlank h]
    obtain ⟨front, word, rest, rfl, hf, hw, hr⟩ := exists_words h
    rw [firstWord_append hf hw hr, afterWord_append hf hw hr, trimEnd_append_word front rest hw,
      dropWhile_append_blank hf, hw.dropWhile_append]

/-- Blanks around a text are trimmed with those of the text. -/
theorem trim_append (hf : AllBlank front) (hb : AllBlank back) (cs : List Char) :
    trim (front ++ (cs ++ back)) = trim cs := by
  rw [trim, dropWhile_append_blank hf, ← trim, ← dropWhile_trimEnd, trimEnd_append_blank hb,
    dropWhile_trimEnd]

/-- A text is what trimming leaves of it, and blanks around that. -/
theorem exists_trim (cs : List Char) :
    ∃ front back, AllBlank front ∧ AllBlank back ∧ cs = front ++ (trim cs ++ back) := by
  let inner := cs.dropWhile isBlank
  refine ⟨cs.takeWhile isBlank, (inner.reverse.takeWhile isBlank).reverse,
    fun _ hc => List.mem_takeWhile_imp hc,
    fun _ hc => List.mem_takeWhile_imp (List.mem_reverse.mp hc), ?_⟩
  have hinner : trimEnd inner ++ (inner.reverse.takeWhile isBlank).reverse = inner := by
    rw [trimEnd, ← List.reverse_append, List.takeWhile_append_dropWhile, List.reverse_reverse]
  rw [trim, hinner, List.takeWhile_append_dropWhile]

theorem trim_trim (cs : List Char) : trim (trim cs) = trim cs := by
  obtain ⟨front, back, hf, hb, hc⟩ := exists_trim cs
  exact (trim_append hf hb _).symm.trans (congrArg trim hc.symm)

/-- What trimming leaves does not begin with a blank. -/
theorem trim_eq_nil_of_beginsBlank (h : BeginsBlank (trim cs ++ rest)) : trim cs = [] := by
  by_contra hne
  have hblank : ¬ AllBlank cs := mt trim_of_allBlank hne
  obtain ⟨c, more, hc⟩ := List.exists_cons_of_ne_nil (isWord_firstWord hblank).1
  rw [trim_eq_of_not_allBlank hblank, hc] at h
  have hfirst := (isWord_firstWord hblank).2 c (hc ▸ List.mem_cons_self)
  exact absurd (h c rfl) (by simp [hfirst])

/-! ### Lower case -/

/-- The numbers of all blanks, from the first of a run to the last. -/
def blankRuns : List (Nat × Nat) :=
  [(9, 13), (28, 32), (0x85, 0x85), (0xA0, 0xA0), (0x1680, 0x1680), (0x2000, 0x200A),
    (0x2028, 0x2029), (0x202F, 0x202F), (0x205F, 0x205F), (0x3000, 0x3000)]

theorem isBlank_iff {c : Char} :
    isBlank c ↔ ∃ b ∈ blankRuns, b.1 ≤ c.toNat ∧ c.toNat ≤ b.2 := by
  simp only [isBlank, Bool.or_eq_true, Bool.and_eq_true, decide_eq_true_eq, beq_iff_eq,
    blankRuns, List.mem_cons, List.not_mem_nil, or_false, exists_eq_or_imp, exists_eq_left]
  omega

/-- No run of characters with another lower case meets a run of blanks, nor does what it leads to. -/
theorem caseRuns_apart : ∀ r ∈ caseRuns, ∀ b ∈ blankRuns,
    (b.2 < r.first ∨ r.last < b.1) ∧ ((b.2 : Int) < r.first + r.delta ∨ r.last + r.delta < b.1) := by
  decide +kernel

/-- The number of a character is what it was made of, unless no character has that number. -/
theorem toNat_ofNat (n : Nat) : (Char.ofNat n).toNat = n ∨ (Char.ofNat n).toNat = 0 := by
  by_cases h : n.isValidChar
  · exact .inl (congrArg Char.toNat (dif_pos h))
  · exact .inr (congrArg Char.toNat (dif_neg h))

/-- A blank is the lower case of itself, and of nothing else. -/
theorem lowerChar_of_blank {c : Char} (h : isBlank c ∨ isBlank (lowerChar c)) :
    lowerChar c = c := by
  unfold lowerChar at h ⊢
  split at h
  · next r hr =>
    exfalso
    have hm : r ∈ caseRuns := Array.mem_of_find?_eq_some hr
    have hp := Array.find?_some hr
    simp only [Bool.and_eq_true, decide_eq_true_eq] at hp
    rcases h with h | h <;> obtain ⟨b, hb, hfirst, hlast⟩ := isBlank_iff.mp h
    · have := (caseRuns_apart r hm b hb).1
      omega
    · have hpos : ∀ b ∈ blankRuns, 0 < b.1 := by decide
      have := hpos b hb
      have := (caseRuns_apart r hm b hb).2
      rcases toNat_ofNat (c.toNat + r.delta).toNat with hto | hto <;> omega
  · rfl

/-- The blanks of a text are those of its lower case. -/
theorem mem_lowerFrom_iff {c : Char} (h : isBlank c) (before : List Char) :
    c ∈ lowerFrom before cs ↔ c ∈ cs := by
  induction cs generalizing before with
  | nil => exact Iff.rfl
  | cons d cs ih =>
    rw [lowerFrom, List.mem_append, List.mem_cons, ih]
    refine or_congr ?_ Iff.rfl
    have other {x : Char} (hx : isBlank x = false) : c ≠ x := by
      rintro rfl
      exact absurd h (by simp [hx])
    split
    · next hd =>
      subst hd
      split <;> simp [other (x := 'ς') (by decide), other (x := 'σ') (by decide),
        other (x := 'Σ') (by decide)]
    · split
      · next hd =>
        subst hd
        simp [other (x := 'i') (by decide), other (x := Char.ofNat 0x307) (by decide),
          other (x := 'İ') (by decide)]
      · rw [List.mem_singleton]
        constructor
        · intro hc
          rw [hc] at h
          rw [hc, lowerChar_of_blank (.inr h)]
        · intro hc
          rw [hc] at h
          rw [hc, lowerChar_of_blank (.inl h)]

theorem lower_eq_nil_iff : lower cs = [] ↔ cs = [] := by
  cases cs with
  | nil => exact Iff.rfl
  | cons c cs =>
    refine iff_of_false (List.append_ne_nil_of_left_ne_nil ?_ _) (List.cons_ne_nil c cs)
    split
    · split <;> exact List.cons_ne_nil _ _
    · split <;> exact List.cons_ne_nil _ _

/-- Words are what has a word for its lower case. -/
theorem isWord_lower_iff : IsWord (lower cs) ↔ IsWord cs := by
  refine and_congr (not_congr lower_eq_nil_iff) ⟨fun h c hc => ?_, fun h c hc => ?_⟩
  · by_contra hb
    have hblank : isBlank c = true := by simpa using hb
    exact hb (h c ((mem_lowerFrom_iff hblank []).mpr hc))
  · by_contra hb
    have hblank : isBlank c = true := by simpa using hb
    exact hb (h c ((mem_lowerFrom_iff hblank []).mp hc))

/-- The lower case of a text. -/
def lowered (s : String) : String :=
  String.ofList (lower s.toList)

end ScriptHost.Text
