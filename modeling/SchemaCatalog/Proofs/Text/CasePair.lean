import SchemaCatalog.Text.LowerCase
import SchemaCatalog.Text.WhiteSpace

/-!
# Letters that change when they are lower-cased

A character with another lower-case form is a letter with case, and so is that form; neither is looked
past by the rule for the final sigma, and neither is white space.  These are facts about the tables.
Their intervals ascend, so a search may stop at the first interval that is not passed.
-/

namespace SchemaCatalog.Text

namespace Intervals

/-- The intervals ascend from a bound. -/
def ascend : Nat → Intervals → Bool
  | _, [] => true
  | bound, interval :: rest =>
    Nat.ble bound interval.1 && Nat.ble interval.1 interval.2 && ascend interval.2 rest

/-- Whether ascending intervals reach into the code points from `first` to `last`. -/
def meets : Intervals → Nat → Nat → Bool
  | [], _, _ => false
  | interval :: rest, first, last =>
    bif Nat.ble first interval.2 then Nat.ble interval.1 last else meets rest first last

/-- Whether one of ascending intervals holds all code points from `first` to `last`. -/
def encloses : Intervals → Nat → Nat → Bool
  | [], _, _ => false
  | interval :: rest, first, last =>
    bif Nat.ble first interval.2 then Nat.ble interval.1 first && Nat.ble last interval.2
    else encloses rest first last

theorem le_of_ascend {set : Intervals} {bound : Nat} (h : set.ascend bound = true)
    {interval : Nat × Nat} (hmem : interval ∈ set) : bound ≤ interval.1 := by
  induction set generalizing bound with
  | nil => cases hmem
  | cons head rest ih =>
    simp only [ascend, Bool.and_eq_true, Nat.ble_eq] at h
    rcases List.mem_cons.mp hmem with rfl | hrest
    · exact h.1.1
    · have hbound := ih h.2 hrest
      omega

theorem contains_eq_false_of_meets {set : Intervals} {bound : Nat} (hascend : set.ascend bound = true)
    {first last n : Nat} (h : set.meets first last = false) (hfirst : first ≤ n) (hlast : n ≤ last) :
    set.contains n = false := by
  induction set generalizing bound with
  | nil => rfl
  | cons interval rest ih =>
    simp only [ascend, Bool.and_eq_true, Nat.ble_eq] at hascend
    rw [meets, cond_eq_ite] at h
    split at h
    · -- this interval starts after `last`, and so do all that follow it
      have hstart : last < interval.1 := by
        simpa [Bool.eq_false_iff, Nat.ble_eq] using h
      apply Bool.eq_false_iff.mpr
      intro hcontains
      rcases contains_iff.mp hcontains with ⟨other, hmem, hlow, -⟩
      rcases List.mem_cons.mp hmem with rfl | hrest
      · omega
      · have hbound := le_of_ascend hascend.2 hrest
        omega
    · rename_i hpassed
      have hend : interval.2 < first := by simpa [Nat.ble_eq] using hpassed
      have hrest : contains rest n = false := ih hascend.2 h
      have hout : (interval.1 ≤ n && n ≤ interval.2 : Bool) = false := by
        simp only [Bool.and_eq_false_iff, decide_eq_false_iff_not]
        omega
      rw [contains, List.any_cons, hout, Bool.false_or]
      exact hrest

theorem contains_of_encloses {set : Intervals} {first last n : Nat}
    (h : set.encloses first last = true) (hfirst : first ≤ n) (hlast : n ≤ last) :
    set.contains n = true := by
  induction set with
  | nil => cases h
  | cons interval rest ih =>
    rw [encloses, cond_eq_ite] at h
    split at h
    · simp only [Bool.and_eq_true, Nat.ble_eq] at h
      exact contains_iff.mpr ⟨interval, List.mem_cons_self, by omega, by omega⟩
    · rcases contains_iff.mp (ih h) with ⟨other, hmem, hbounds⟩
      exact contains_iff.mpr ⟨other, List.mem_cons_of_mem _ hmem, hbounds⟩

end Intervals

/-! ## The tables -/

theorem ascend_tables : caseIgnorable.ascend 0 = true ∧ cased.ascend 0 = true := by
  decide +kernel

theorem whiteSpace_not_cased :
    whiteSpace.all (fun interval => !cased.meets interval.1 interval.2) = true := by
  decide +kernel

/-- The image of the last code point, if the run lists it. -/
def CaseRun.lastImage (run : CaseRun) : Nat :=
  run.image + (run.last - run.first)

/-- The run takes letters with case to characters that are letters with case, and to no capital
sigma.  All of them come after the separators of names. -/
structure CaseRun.KeepsCase (run : CaseRun) : Prop where
  domain_seen : caseIgnorable.meets run.first run.last = false
  image_seen : caseIgnorable.meets run.image run.lastImage = false
  -- one run goes over code points without characters, so it is looked at point by point
  domain_cased : cased.encloses run.first run.last = true ∨
    ∀ n ∈ List.range' run.first (run.last + 1 - run.first),
      run.covers n = true → cased.encloses n n = true
  image_cased : cased.encloses run.image run.lastImage = true
  image_valid : run.lastImage < 0xD800 ∨ 0xE000 ≤ run.image ∧ run.lastImage < 0x110000
  image_ne_sigma : run.lastImage < 0x3A3 ∨ 0x3A3 < run.image
  above : 0x41 ≤ run.first ∧ 0x41 ≤ run.image

instance (run : CaseRun) : Decidable run.KeepsCase :=
  decidable_of_iff (_ ∧ _ ∧ _ ∧ _ ∧ _ ∧ _ ∧ _)
    ⟨fun ⟨h₁, h₂, h₃, h₄, h₅, h₆, h₇⟩ => ⟨h₁, h₂, h₃, h₄, h₅, h₆, h₇⟩,
      fun ⟨h₁, h₂, h₃, h₄, h₅, h₆, h₇⟩ => ⟨h₁, h₂, h₃, h₄, h₅, h₆, h₇⟩⟩

theorem keepsCase_of_mem {run : CaseRun} (hrun : run ∈ lowerRuns) : run.KeepsCase := by
  have hall : ∀ run ∈ lowerRuns, run.KeepsCase := by decide +kernel
  exact hall run hrun

/-! ## Characters -/

/-- Has case and is not looked past. -/
def isCaseLetter (c : Char) : Bool :=
  isCased c && !isCaseIgnorable c

theorem isCaseLetter_of_meets {c : Char} {first last : Nat} (hcased : isCased c = true)
    (hseen : caseIgnorable.meets first last = false) (hfirst : first ≤ c.toNat)
    (hlast : c.toNat ≤ last) : isCaseLetter c = true := by
  have hignorable : isCaseIgnorable c = false :=
    Intervals.contains_eq_false_of_meets ascend_tables.1 hseen hfirst hlast
  rw [isCaseLetter, hcased, hignorable]
  rfl

theorem isCaseLetter_of_meets_self {c : Char} (hcased : isCased c = true)
    (hseen : caseIgnorable.meets c.toNat c.toNat = false) : isCaseLetter c = true :=
  isCaseLetter_of_meets hcased hseen (Nat.le_refl _) (Nat.le_refl _)

theorem isWhiteSpace_of_isCaseLetter {c : Char} (h : isCaseLetter c = true) :
    isWhiteSpace c = false := by
  apply Bool.eq_false_iff.mpr
  intro hwhite
  rcases Intervals.contains_iff.mp hwhite with ⟨interval, hmem, hlow, hhigh⟩
  have hmeets : cased.meets interval.1 interval.2 = false := by
    simpa using List.all_eq_true.mp whiteSpace_not_cased interval hmem
  have hcased : isCased c = false :=
    Intervals.contains_eq_false_of_meets ascend_tables.2 hmeets hlow hhigh
  rw [isCaseLetter, hcased] at h
  cases h

theorem CaseRun.covers_iff {run : CaseRun} {n : Nat} :
    run.covers n = true ↔ run.first ≤ n ∧ n ≤ run.last ∧ (n - run.first) % run.step = 0 := by
  simp [CaseRun.covers, and_assoc]

theorem isCaseLetter_of_covers {run : CaseRun} (hrun : run ∈ lowerRuns) {c : Char}
    (hcovers : run.covers c.toNat = true) : isCaseLetter c = true := by
  have hkeeps := keepsCase_of_mem hrun
  rcases CaseRun.covers_iff.mp hcovers with ⟨hlow, hhigh, -⟩
  have hcased : isCased c = true := by
    rcases hkeeps.domain_cased with hwhole | hpoints
    · exact Intervals.contains_of_encloses hwhole hlow hhigh
    · have hpoint := hpoints c.toNat (List.mem_range'_1.mpr (by omega)) hcovers
      exact Intervals.contains_of_encloses hpoint (Nat.le_refl _) (Nat.le_refl _)
  exact isCaseLetter_of_meets hcased hkeeps.domain_seen hlow hhigh

theorem toNat_ofNat {n : Nat} (h : n.isValidChar) : (Char.ofNat n).toNat = n := by
  have hofNat : Char.ofNat n = Char.ofNatAux n h := dif_pos h
  rw [hofNat]
  rfl

theorem CaseRun.send_bounds {run : CaseRun} {n : Nat} (hcovers : run.covers n = true) :
    run.image ≤ run.send n ∧ run.send n ≤ run.lastImage := by
  rcases covers_iff.mp hcovers with ⟨hlow, hhigh, -⟩
  rw [send, lastImage]
  omega

theorem toNat_ofNat_send {run : CaseRun} (hrun : run ∈ lowerRuns) {n : Nat}
    (hcovers : run.covers n = true) : (Char.ofNat (run.send n)).toNat = run.send n := by
  have hbounds := CaseRun.send_bounds hcovers
  apply toNat_ofNat
  rcases (keepsCase_of_mem hrun).image_valid with hbelow | habove
  · exact Or.inl (by omega)
  · exact Or.inr ⟨by omega, by omega⟩

theorem isCaseLetter_send {run : CaseRun} (hrun : run ∈ lowerRuns) {n : Nat}
    (hcovers : run.covers n = true) :
    isCaseLetter (Char.ofNat (run.send n)) = true ∧ Char.ofNat (run.send n) ≠ 'Σ' := by
  have hkeeps := keepsCase_of_mem hrun
  have hbounds := CaseRun.send_bounds hcovers
  have htoNat := toNat_ofNat_send hrun hcovers
  have hcased : isCased (Char.ofNat (run.send n)) = true := by
    rw [isCased, htoNat]
    exact Intervals.contains_of_encloses hkeeps.image_cased hbounds.1 hbounds.2
  constructor
  · exact isCaseLetter_of_meets hcased hkeeps.image_seen (by omega) (by omega)
  · intro hsigma
    have hcode : run.send n = 0x3A3 := by
      rw [← htoNat, hsigma]
      rfl
    have hne := hkeeps.image_ne_sigma
    omega

-- The dotted capital is the one character whose form is longer.
theorem lowerChar_cases {c : Char} (hdotted : c ≠ 'İ') :
    ∃ d, lowerChar c = [d] ∧
      (d = c ∨ isCaseLetter c = true ∧ isCaseLetter d = true ∧ d ≠ 'Σ') := by
  rw [lowerChar, if_neg hdotted]
  refine ⟨_, rfl, ?_⟩
  rcases mapCodePoint_cases lowerRuns c.toNat with ⟨run, hrun, hcovers, hsend⟩ | ⟨-, hself⟩
  · rw [hsend]
    exact Or.inr ⟨isCaseLetter_of_covers hrun hcovers, isCaseLetter_send hrun hcovers⟩
  · rw [hself, Char.ofNat_toNat]
    exact Or.inl rfl

/-! ## Below the capital letters

Full stop and colon come before the letters: lower-casing leaves them alone and makes neither out of
another character.
-/

-- Below the capital letters of ASCII every character is its own lower-case form.
theorem lowerChar_of_lt {c : Char} (h : c.toNat < 0x41) : lowerChar c = [c] := by
  have hdotted : c ≠ 'İ' := by
    rintro rfl
    revert h
    decide
  have hcovers : ∀ run ∈ lowerRuns, run.covers c.toNat = false := by
    intro run hrun
    have habove := (keepsCase_of_mem hrun).above
    simp only [CaseRun.covers, Bool.and_eq_false_iff, decide_eq_false_iff_not]
    omega
  rw [lowerChar, if_neg hdotted, mapCodePoint_eq_self hcovers, Char.ofNat_toNat]

theorem toNat_of_eq_ofNat {c : Char} {n : Nat} (hpos : 0 < c.toNat) (h : c = Char.ofNat n) :
    c.toNat = n := by
  by_cases hvalid : n.isValidChar
  · rw [h, toNat_ofNat hvalid]
  · have hofNat : Char.ofNat n = '\x00' := dif_neg hvalid
    rw [h, hofNat] at hpos
    exact absurd hpos (by decide)

-- No other character has such a character in its lower-case form.
theorem mem_lowerChar_iff {c d : Char} (hpos : 0 < d.toNat) (hlt : d.toNat < 0x41) :
    d ∈ lowerChar c ↔ d = c := by
  constructor
  · intro hmem
    unfold lowerChar at hmem
    split at hmem
    · have hmarks : ['i', '\u0307'].all (fun d => 0x41 ≤ d.toNat) = true := by decide
      have hmark := of_decide_eq_true (List.all_eq_true.mp hmarks d hmem)
      omega
    · have heq : d = Char.ofNat (mapCodePoint lowerRuns c.toNat) := List.mem_singleton.mp hmem
      rcases mapCodePoint_cases lowerRuns c.toNat with ⟨run, hrun, -, hsend⟩ | ⟨-, hself⟩
      · have habove := (keepsCase_of_mem hrun).above
        have hvalue : d.toNat = run.send c.toNat := by
          rw [hsend] at heq
          exact toNat_of_eq_ofNat hpos heq
        unfold CaseRun.send at hvalue
        omega
      · rw [heq, hself, Char.ofNat_toNat]
  · rintro rfl
    rw [lowerChar_of_lt hlt]
    exact List.mem_singleton_self d

end SchemaCatalog.Text
