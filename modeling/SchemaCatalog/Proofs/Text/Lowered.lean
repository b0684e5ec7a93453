import SchemaCatalog.Proofs.Text.CasePair

/-!
# Lower-case texts

Lower-casing a text gives characters that are their own lower-case forms, and no capital sigma.  So
lower-casing it again changes nothing, whatever stands around it.
-/

namespace SchemaCatalog.Text

/-! ## The table -/

/-- No image of the run is covered by the other run: the two are apart, or the images fall between the
characters that the other run lists. -/
def CaseRun.avoids (run other : CaseRun) : Bool :=
  Nat.blt run.lastImage other.first || Nat.blt other.last run.image ||
    other.step == 2 && (run.step == 2 || run.first == run.last) &&
      (run.image + other.first) % 2 == 1

theorem CaseRun.not_covers_of_avoids {run other : CaseRun} {n : Nat}
    (h : run.avoids other = true) (hcovers : run.covers n = true) :
    other.covers (run.send n) = false := by
  have hbounds := send_bounds hcovers
  rw [covers_iff] at hcovers
  apply Bool.eq_false_iff.mpr
  intro hother
  rw [covers_iff] at hother
  simp only [avoids, Bool.or_eq_true, Bool.and_eq_true, Nat.blt_eq, beq_iff_eq] at h
  rcases h with (hbelow | habove) | ⟨⟨hstep, hrun⟩, hodd⟩
  · omega
  · omega
  · -- the image has the parity of the first image, and the other run lists the other parity
    rw [hstep] at hother
    rcases hrun with hrun | hrun
    · rw [hrun] at hcovers
      rw [send] at hother
      omega
    · rw [send] at hother
      omega

theorem lowerRuns_avoid : lowerRuns.all (fun run => lowerRuns.all run.avoids) = true := by
  decide +kernel

-- The dotted capital is no image either.
theorem dotted_not_image :
    lowerRuns.all (fun run => Nat.blt run.lastImage 0x130 || Nat.blt 0x130 run.image) = true := by
  decide +kernel

/-! ## Characters -/

theorem lowerChar_send {run : CaseRun} (hrun : run ∈ lowerRuns) {n : Nat}
    (hcovers : run.covers n = true) :
    lowerChar (Char.ofNat (run.send n)) = [Char.ofNat (run.send n)] := by
  have htoNat := toNat_ofNat_send hrun hcovers
  have hdotted : Char.ofNat (run.send n) ≠ 'İ' := by
    intro hdotted
    have hcode : run.send n = 0x130 := by
      rw [← htoNat, hdotted]
      rfl
    have hbounds := CaseRun.send_bounds hcovers
    have hapart := List.all_eq_true.mp dotted_not_image run hrun
    simp only [Bool.or_eq_true, Nat.blt_eq] at hapart
    omega
  have hfixed : mapCodePoint lowerRuns (run.send n) = run.send n := by
    apply mapCodePoint_eq_self
    intro other hother
    have hrow := List.all_eq_true.mp lowerRuns_avoid run hrun
    exact CaseRun.not_covers_of_avoids (List.all_eq_true.mp hrow other hother) hcovers
  rw [lowerChar, if_neg hdotted, htoNat, hfixed]

/-- Is its own lower-case form wherever it stands. -/
def IsLower (c : Char) : Prop :=
  c ≠ 'Σ' ∧ lowerChar c = [c]

instance (c : Char) : Decidable (IsLower c) :=
  inferInstanceAs (Decidable (_ ∧ _))

theorem isLower_of_mem_lowerChar {c d : Char} (hsigma : c ≠ 'Σ') (hd : d ∈ lowerChar c) :
    IsLower d := by
  by_cases hdotted : c = 'İ'
  · subst hdotted
    have hmarks : IsLower 'i' ∧ IsLower '\u0307' := by decide
    rw [lowerChar, if_pos rfl, List.mem_cons, List.mem_singleton] at hd
    rcases hd with rfl | rfl
    · exact hmarks.1
    · exact hmarks.2
  · rw [lowerChar, if_neg hdotted, List.mem_singleton] at hd
    subst hd
    rcases mapCodePoint_cases lowerRuns c.toNat with ⟨run, hrun, hcovers, hsend⟩ | ⟨-, hself⟩
    · rw [hsend]
      exact ⟨(isCaseLetter_send hrun hcovers).2, lowerChar_send hrun hcovers⟩
    · rw [hself, Char.ofNat_toNat]
      refine ⟨hsigma, ?_⟩
      rw [lowerChar, if_neg hdotted, hself, Char.ofNat_toNat]

theorem isLower_of_mem_lowerBetween {before after : List Char} {c d : Char}
    (hd : d ∈ lowerBetween before c after) : IsLower d := by
  unfold lowerBetween at hd
  split at hd
  · have hforms : IsLower 'ς' ∧ IsLower 'σ' := by decide
    rw [List.mem_singleton] at hd
    subst hd
    split
    · exact hforms.1
    · exact hforms.2
  · rename_i hsigma
    exact isLower_of_mem_lowerChar hsigma hd

/-! ## Texts -/

theorem isLower_of_mem_lowerAfter {before s : List Char} {d : Char}
    (hd : d ∈ lowerAfter before s) : IsLower d := by
  induction s generalizing before with
  | nil => cases hd
  | cons c rest ih =>
    rcases List.mem_append.mp hd with hd | hd
    · exact isLower_of_mem_lowerBetween hd
    · exact ih hd

theorem lower_eq_self {s : List Char} (h : ∀ c ∈ s, IsLower c) : lower s = s := by
  have hsigma : 'Σ' ∉ s := fun hmem => (h 'Σ' hmem).1 rfl
  rw [lower_eq_flatMap hsigma]
  induction s with
  | nil => rfl
  | cons c rest ih =>
    rw [List.flatMap_cons, (h c List.mem_cons_self).2]
    have hrest := ih (fun d hd => h d (List.mem_cons_of_mem _ hd))
      fun hmem => hsigma (List.mem_cons_of_mem _ hmem)
    rw [hrest]
    rfl

/-- **Lower-casing twice is lower-casing once.** -/
theorem lower_lower (s : List Char) : lower (lower s) = lower s :=
  lower_eq_self fun _ => isLower_of_mem_lowerAfter

end SchemaCatalog.Text
