import SchemaCatalog.Proofs.Text.CasePair

/-!
# The capital sigma and what stands around it

What stands before a text matters for its lower-case form only if its first letter is a final sigma.
The case of the other letters never matters: lower-casing them first and turning the sigmas afterwards
is lower-casing.
-/

namespace SchemaCatalog.Text

/-! ## What a context starts with -/

theorem startsCased_cons (c : Char) (s : List Char) :
    startsCased (c :: s) = if isCaseIgnorable c then startsCased s else isCased c := by
  unfold startsCased
  cases hignorable : isCaseIgnorable c with
  | true => rw [List.dropWhile_cons_of_pos hignorable, if_pos rfl]
  | false => rw [List.dropWhile_cons_of_neg (by simp [hignorable]), if_neg Bool.false_ne_true]

theorem startsCased_cons_congr (c : Char) {s t : List Char}
    (h : startsCased s = startsCased t) : startsCased (c :: s) = startsCased (c :: t) := by
  rw [startsCased_cons, startsCased_cons, h]

theorem startsCased_of_isCaseLetter {c : Char} (h : isCaseLetter c = true) (s : List Char) :
    startsCased (c :: s) = true := by
  simp only [isCaseLetter, Bool.and_eq_true, Bool.not_eq_true'] at h
  rw [startsCased_cons, h.2, if_neg Bool.false_ne_true]
  exact h.1

theorem isCaseLetter_sigma : isCaseLetter 'Σ' = true :=
  isCaseLetter_of_meets_self (by decide) (by decide)

/-! ## A text between its neighbours -/

theorem lowerBetween_congr {before other : List Char} (h : startsCased before = startsCased other)
    (c : Char) (after : List Char) : lowerBetween before c after = lowerBetween other c after := by
  unfold lowerBetween endsWord
  rw [h]

-- Of what stands before a text only this much matters.
theorem lowerAfter_congr {before other : List Char} (h : startsCased before = startsCased other)
    (s : List Char) : lowerAfter before s = lowerAfter other s := by
  induction s generalizing before other with
  | nil => rfl
  | cons c rest ih =>
    rw [lowerAfter, lowerAfter, lowerBetween_congr h, ih (startsCased_cons_congr c h)]

/-- The first letter is a capital sigma that no cased letter follows: it ends a word if the word
begins before the text. -/
def opensWithFinalSigma (s : List Char) : Bool :=
  match s.dropWhile isCaseIgnorable with
  | [] => false
  | c :: rest => c == 'Σ' && !startsCased rest

theorem opensWithFinalSigma_cons (c : Char) (s : List Char) :
    opensWithFinalSigma (c :: s) =
      if isCaseIgnorable c then opensWithFinalSigma s else c == 'Σ' && !startsCased s := by
  unfold opensWithFinalSigma
  cases hignorable : isCaseIgnorable c with
  | true => rw [List.dropWhile_cons_of_pos hignorable, if_pos rfl]
  | false => rw [List.dropWhile_cons_of_neg (by simp [hignorable]), if_neg Bool.false_ne_true]

-- A word that begins before the text changes the form of this one sigma.
theorem lowerAfter_eq_iff {before other : List Char} (hbefore : startsCased before = true)
    (hother : startsCased other = false) (s : List Char) :
    lowerAfter before s = lowerAfter other s ↔ opensWithFinalSigma s = false := by
  induction s generalizing before other with
  | nil => exact iff_of_true rfl rfl
  | cons c rest ih =>
    rw [lowerAfter, lowerAfter, opensWithFinalSigma_cons]
    by_cases hsigma : c = 'Σ'
    · -- the sigma itself is a letter, so the texts after it agree
      subst hsigma
      have hrest : lowerAfter ('Σ' :: before) rest = lowerAfter ('Σ' :: other) rest := by
        apply lowerAfter_congr
        rw [startsCased_of_isCaseLetter isCaseLetter_sigma,
          startsCased_of_isCaseLetter isCaseLetter_sigma]
      have hignorable : isCaseIgnorable 'Σ' = false := by
        have hletter := isCaseLetter_sigma
        simp only [isCaseLetter, Bool.and_eq_true, Bool.not_eq_true'] at hletter
        exact hletter.2
      rw [hrest, hignorable, if_neg Bool.false_ne_true, List.append_cancel_right_eq, lowerBetween,
        lowerBetween, endsWord, endsWord, hbefore, hother]
      cases startsCased rest <;> decide
    · have hsame : lowerBetween before c rest = lowerBetween other c rest := by
        rw [lowerBetween, lowerBetween, if_neg hsigma, if_neg hsigma]
      rw [hsame, List.append_cancel_left_eq]
      cases hignorable : isCaseIgnorable c with
      | true =>
        rw [if_pos rfl]
        apply ih
        · rw [startsCased_cons, hignorable, if_pos rfl, hbefore]
        · rw [startsCased_cons, hignorable, if_pos rfl, hother]
      | false =>
        have hrest : lowerAfter (c :: before) rest = lowerAfter (c :: other) rest := by
          apply lowerAfter_congr
          rw [startsCased_cons, startsCased_cons, hignorable, if_neg Bool.false_ne_true,
            if_neg Bool.false_ne_true]
        have hne : (c == 'Σ') = false := by simpa using hsigma
        rw [if_neg Bool.false_ne_true, hne, Bool.false_and]
        exact iff_of_true hrest rfl

theorem lowerAfter_eq_lower_iff (before s : List Char) :
    lowerAfter before s = lower s ↔
      ¬ (startsCased before = true ∧ opensWithFinalSigma s = true) := by
  cases hbefore : startsCased before with
  | false =>
    have hsame : lowerAfter before s = lower s := lowerAfter_congr hbefore s
    exact iff_of_true hsame fun h => Bool.false_ne_true h.1
  | true =>
    rw [lower, lowerAfter_eq_iff hbefore rfl, ← Bool.not_eq_true, and_iff_right rfl]

/-! ## Separators -/

theorem mem_lowerBetween_iff {before after : List Char} {c d : Char} (hpos : 0 < d.toNat)
    (hlt : d.toNat < 0x41) : d ∈ lowerBetween before c after ↔ d = c := by
  unfold lowerBetween
  split
  · rename_i hsigma
    have hletters : ['σ', 'ς', 'Σ'].all (fun d => 0x41 ≤ d.toNat) = true := by decide
    have hne : ∀ letter ∈ ['σ', 'ς', 'Σ'], d ≠ letter := by
      rintro letter hletter rfl
      have hbound := of_decide_eq_true (List.all_eq_true.mp hletters d hletter)
      omega
    subst hsigma
    split <;> simp [hne]
  · exact mem_lowerChar_iff hpos hlt

theorem lowerAfter_cons_of_lt {d : Char} (hlt : d.toNat < 0x41) (before rest : List Char) :
    lowerAfter before (d :: rest) = d :: lowerAfter (d :: before) rest := by
  have hsigma : d ≠ 'Σ' := by
    rintro rfl
    revert hlt
    decide
  rw [lowerAfter, lowerBetween, if_neg hsigma, lowerChar_of_lt hlt]
  rfl

-- Lower-casing keeps the characters below the letters, in whatever context.
theorem mem_lowerAfter_iff {before s : List Char} {d : Char} (hpos : 0 < d.toNat)
    (hlt : d.toNat < 0x41) : d ∈ lowerAfter before s ↔ d ∈ s := by
  induction s generalizing before with
  | nil => exact Iff.rfl
  | cons c rest ih =>
    rw [lowerAfter, List.mem_append, mem_lowerBetween_iff hpos hlt, ih, List.mem_cons]

theorem exists_lowerAfter_append (before s t : List Char) :
    ∃ front, lowerAfter before (s ++ t) = front ++ lowerAfter (s.reverse ++ before) t ∧
      ∀ d : Char, 0 < d.toNat → d.toNat < 0x41 → (d ∈ front ↔ d ∈ s) := by
  induction s generalizing before with
  | nil => exact ⟨[], rfl, fun d _ _ => Iff.rfl⟩
  | cons c rest ih =>
    rcases ih (c :: before) with ⟨front, hfront, hmem⟩
    refine ⟨lowerBetween before c (rest ++ t) ++ front, ?_, ?_⟩
    · rw [List.cons_append, lowerAfter, hfront, List.reverse_cons, List.append_assoc,
        List.append_assoc]
      rfl
    · intro d hpos hlt
      rw [List.mem_append, mem_lowerBetween_iff hpos hlt, hmem d hpos hlt, List.mem_cons]

/-! ## Sparing the sigmas -/

/-- The lower-case form of a character, but a capital sigma stays as it is. -/
def spareChar (c : Char) : List Char :=
  if c = 'Σ' then ['Σ'] else lowerChar c

/-- Turns the capital sigmas of a text that follows `before`, and nothing else. -/
def settleAfter (before : List Char) : List Char → List Char
  | [] => []
  | c :: rest =>
    (if c = 'Σ' then [if endsWord before rest then 'ς' else 'σ'] else [c]) ++
      settleAfter (c :: before) rest

theorem spareChar_cases (c : Char) :
    (c = 'İ' ∧ spareChar c = ['i', '\u0307']) ∨
      ∃ d, spareChar c = [d] ∧ (d = 'Σ' ↔ c = 'Σ') ∧
        (d = c ∨ isCaseLetter c = true ∧ isCaseLetter d = true) := by
  by_cases hdotted : c = 'İ'
  · subst hdotted
    exact Or.inl ⟨rfl, by decide⟩
  · right
    by_cases hsigma : c = 'Σ'
    · subst hsigma
      exact ⟨'Σ', rfl, Iff.rfl, Or.inl rfl⟩
    · rcases lowerChar_cases hdotted with ⟨d, hlower, hd⟩
      refine ⟨d, ?_, ?_, hd.imp_right fun h => ⟨h.1, h.2.1⟩⟩
      · rw [spareChar, if_neg hsigma, hlower]
      · rcases hd with rfl | hd
        · exact Iff.rfl
        · exact iff_of_false hd.2.2 hsigma

theorem startsCased_spare (c : Char) {s t : List Char} (h : startsCased s = startsCased t) :
    startsCased (spareChar c ++ s) = startsCased (c :: t) ∧
      startsCased ((spareChar c).reverse ++ s) = startsCased (c :: t) := by
  rcases spareChar_cases c with ⟨rfl, hspare⟩ | ⟨d, hspare, -, hd⟩
  · -- the combining dot is looked past, the letter below it has case
    have hdotted : isCaseLetter 'İ' = true := isCaseLetter_of_meets_self (by decide) (by decide)
    have hletter : isCaseLetter 'i' = true := isCaseLetter_of_meets_self (by decide) (by decide)
    have hdot : isCaseIgnorable '\u0307' = true := by decide
    have hreverse : ['i', '\u0307'].reverse ++ s = '\u0307' :: 'i' :: s := rfl
    rw [hspare, hreverse, List.cons_append, startsCased_of_isCaseLetter hdotted,
      startsCased_of_isCaseLetter hletter, startsCased_cons, hdot, if_pos rfl,
      startsCased_of_isCaseLetter hletter]
    exact ⟨rfl, rfl⟩
  · have hsame : startsCased (d :: s) = startsCased (c :: t) := by
      rcases hd with rfl | ⟨hc, hd⟩
      · exact startsCased_cons_congr d h
      · rw [startsCased_of_isCaseLetter hc, startsCased_of_isCaseLetter hd]
    rw [hspare]
    exact ⟨hsame, hsame⟩

theorem startsCased_flatMap_spareChar (s : List Char) :
    startsCased (s.flatMap spareChar) = startsCased s := by
  induction s with
  | nil => rfl
  | cons c rest ih =>
    rw [List.flatMap_cons]
    exact (startsCased_spare c ih).1

theorem settleAfter_of_ne {c : Char} (hne : c ≠ 'Σ') (before rest : List Char) :
    settleAfter before (c :: rest) = c :: settleAfter (c :: before) rest := by
  rw [settleAfter, if_neg hne]
  rfl

-- Sparing the sigmas of the context too makes no difference.
theorem settleAfter_spare {before other : List Char} (h : startsCased before = startsCased other)
    (s : List Char) : settleAfter before (s.flatMap spareChar) = lowerAfter other s := by
  induction s generalizing before other with
  | nil => rfl
  | cons c rest ih =>
    have hrest := ih (startsCased_spare c h).2
    rw [List.flatMap_cons, lowerAfter]
    rcases spareChar_cases c with ⟨rfl, hspare⟩ | ⟨d, hspare, hsigma, -⟩
    · rw [hspare] at hrest ⊢
      rw [List.cons_append, List.singleton_append, settleAfter_of_ne (by decide),
        settleAfter_of_ne (by decide)]
      exact congrArg ('i' :: '\u0307' :: ·) hrest
    · rw [hspare] at hrest ⊢
      rw [List.singleton_append]
      by_cases hc : c = 'Σ'
      · obtain rfl := hsigma.mpr hc
        subst hc
        rw [settleAfter, if_pos rfl, lowerBetween, if_pos rfl, endsWord, endsWord, h,
          startsCased_flatMap_spareChar]
        exact congrArg ([_] ++ ·) hrest
      · have hlower : lowerChar c = [d] := by
          rw [spareChar, if_neg hc] at hspare
          exact hspare
        rw [settleAfter_of_ne (mt hsigma.mp hc), lowerBetween, if_neg hc, hlower]
        exact congrArg (d :: ·) hrest

theorem settleAfter_flatMap_spareChar (s : List Char) :
    settleAfter [] (s.flatMap spareChar) = lower s :=
  settleAfter_spare rfl s

/-! ## Merging the sigmas -/

/-- Takes the form of the sigma at the end of a word for the other one. -/
def mergeSigma (c : Char) : Char :=
  if c = 'ς' then 'σ' else c

/-- The lower-case form of a character, with the two forms of the sigma as one. -/
def mergeChar (c : Char) : List Char :=
  (lowerBetween [] c []).map mergeSigma

theorem map_mergeSigma_lowerBetween (before : List Char) (c : Char) (after : List Char) :
    (lowerBetween before c after).map mergeSigma = mergeChar c := by
  unfold mergeChar lowerBetween
  by_cases hsigma : c = 'Σ'
  · rw [if_pos hsigma, if_pos hsigma]
    cases endsWord before after <;> decide
  · rw [if_neg hsigma, if_neg hsigma]

-- Up to the form of the sigmas every character is lower-cased on its own.
theorem map_mergeSigma_lowerAfter (before s : List Char) :
    (lowerAfter before s).map mergeSigma = s.flatMap mergeChar := by
  induction s generalizing before with
  | nil => rfl
  | cons c rest ih =>
    rw [lowerAfter, List.map_append, map_mergeSigma_lowerBetween, ih, List.flatMap_cons]

end SchemaCatalog.Text
