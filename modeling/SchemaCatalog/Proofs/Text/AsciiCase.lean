import SchemaCatalog.Proofs.SqlType.Layout
import SchemaCatalog.Text.AsciiCase
import SchemaCatalog.Text.UpperCase

/-!
# The case of ASCII letters

Only ASCII letters have a lower case here, and it is an ASCII letter.  So what all of these letters
have in common, or none of them has, does not depend on case; nor does the size of a text, nor its
upper-case form.
-/

namespace SchemaCatalog.Text

/-! ## Characters -/

variable {c : Char}

theorem toLower_cases (c : Char) :
    c.toLower = c ∨ 0x41 ≤ c.toNat ∧ c.toNat ≤ 0x5A ∧ c.toLower.toNat = c.toNat + 0x20 := by
  by_cases h : c.val ≥ 'A'.val ∧ c.val ≤ 'Z'.val
  · have hbounds : 0x41 ≤ c.val.toNat ∧ c.val.toNat ≤ 0x5A := h
    have hlower : c.toLower.toNat = (c.val + 0x20).toNat := congrArg Char.toNat (dif_pos h)
    rw [UInt32.toNat_add] at hlower
    refine .inr ⟨hbounds.1, hbounds.2, hlower.trans ?_⟩
    exact Nat.mod_eq_of_lt (show c.val.toNat + 0x20 < 2 ^ 32 by omega)
  · exact .inl (dif_neg h)

theorem toLower_toLower (c : Char) : c.toLower.toLower = c.toLower := by
  rcases toLower_cases c with hself | ⟨hfirst, hlast, htoNat⟩
  · rw [hself, hself]
  · rcases toLower_cases c.toLower with hself | ⟨-, hbound, -⟩
    · exact hself
    · omega

-- What all ASCII letters have, or none of them has, does not depend on case.
theorem toLower_invariant {property : Char → Bool} {value : Bool}
    (halpha : ∀ d : Char, d.isAlpha = true → property d = value) (c : Char) :
    property c.toLower = property c := by
  rcases toLower_cases c with hself | ⟨hfirst, hlast, htoNat⟩
  · rw [hself]
  · rw [halpha c (isAlpha_iff.mpr (.inl ⟨hfirst, hlast⟩)),
      halpha c.toLower (isAlpha_iff.mpr (.inr (by omega)))]

theorem isWhiteSpace_toLower (c : Char) : isWhiteSpace c.toLower = isWhiteSpace c :=
  toLower_invariant (fun _ hd => isWhiteSpace_of_isLetter (isLetter_of_isAlpha hd)) c

theorem isLetter_toLower (c : Char) : isLetter c.toLower = isLetter c :=
  toLower_invariant (fun _ hd => isLetter_of_isAlpha hd) c

theorem isNameChar_toLower (c : Char) : isNameChar c.toLower = isNameChar c :=
  toLower_invariant (fun _ hd => isNameChar_of_isLetter (isLetter_of_isAlpha hd)) c

theorem isDigit_toLower (c : Char) : isDigit c.toLower = isDigit c := by
  refine @toLower_invariant isDigit false (fun d hd => ?_) c
  rw [Bool.eq_false_iff]
  intro hdigit
  have hletter := isLetter_of_isDigit hdigit
  rw [isLetter_of_isAlpha hd] at hletter
  cases hletter

-- Nothing but the character itself has the lower case of a character that is no ASCII letter.
theorem toLower_beq (c : Char) {d : Char} (hd : d.isAlpha = false) :
    (c.toLower == d) = (c == d) := by
  refine @toLower_invariant (· == d) false (fun e he => ?_) c
  rw [beq_eq_false_iff_ne]
  rintro rfl
  rw [he] at hd
  cases hd

theorem toLower_eq_self (hc : isLetter c = false) : c.toLower = c :=
  (toLower_cases c).resolve_right fun ⟨hfirst, hlast, _⟩ => by
    rw [isLetter_of_isAlpha (isAlpha_iff.mpr (.inl ⟨hfirst, hlast⟩))] at hc
    cases hc

theorem utf8Size_toLower (c : Char) : c.toLower.utf8Size = c.utf8Size := by
  have hone : ∀ d : Char, d.toNat ≤ 127 → d.utf8Size = 1 := fun d hd =>
    Char.utf8Size_eq_one_iff.mpr (UInt32.le_iff_toNat_le.mpr hd)
  rcases toLower_cases c with hself | ⟨-, hlast, htoNat⟩
  · rw [hself]
  · rw [hone c (by omega), hone c.toLower (by omega)]

theorem upperChar_toLower (c : Char) : upperChar c.toLower = upperChar c := by
  have hletters : ∀ n < 26, upperChar (Char.ofNat (0x41 + n + 0x20)) = [Char.ofNat (0x41 + n)] := by
    decide
  rcases toLower_cases c with hself | ⟨hfirst, hlast, htoNat⟩
  · rw [hself]
  · obtain ⟨n, hn⟩ := Nat.exists_eq_add_of_le hfirst
    have hlower : c.toLower = Char.ofNat (0x41 + n + 0x20) := by
      rw [← hn, ← htoNat, Char.ofNat_toNat]
    rw [hlower, hletters n (by omega), upperChar_of_lt (by omega), ← hn, Char.ofNat_toNat]

/-! ## Texts -/

/-- A text with its ASCII letters in lower case. -/
def lowerAscii (s : String) : String :=
  String.ofList (s.toList.map Char.toLower)

theorem lowerAscii_ofList (chars : List Char) :
    lowerAscii (String.ofList chars) = String.ofList (chars.map Char.toLower) := by
  rw [lowerAscii, String.toList_ofList]

theorem toList_lowerAscii (s : String) : (lowerAscii s).toList = s.toList.map Char.toLower :=
  String.toList_ofList

theorem equalIgnoringAsciiCase_iff {s t : String} :
    equalIgnoringAsciiCase s t = true ↔ lowerAscii s = lowerAscii t := by
  rw [equalIgnoringAsciiCase, beq_iff_eq, lowerAscii, lowerAscii, String.ofList_inj]

theorem lowerAscii_lowerAscii (s : String) : lowerAscii (lowerAscii s) = lowerAscii s := by
  have htwice : Char.toLower ∘ Char.toLower = Char.toLower := funext toLower_toLower
  rw [lowerAscii, toList_lowerAscii, List.map_map, htwice, lowerAscii]

theorem equalIgnoringAsciiCase_lowerAscii (s t : String) :
    equalIgnoringAsciiCase (lowerAscii s) t = equalIgnoringAsciiCase s t := by
  rw [Bool.eq_iff_iff, equalIgnoringAsciiCase_iff, equalIgnoringAsciiCase_iff,
    lowerAscii_lowerAscii]

theorem utf8ByteSize_ofList_map_toLower (chars : List Char) :
    (String.ofList (chars.map Char.toLower)).utf8ByteSize = (String.ofList chars).utf8ByteSize := by
  induction chars with
  | nil => rfl
  | cons c rest ih =>
    rw [List.map_cons, utf8ByteSize_ofList_cons, utf8ByteSize_ofList_cons, utf8Size_toLower, ih]

theorem utf8ByteSize_lowerAscii (s : String) : (lowerAscii s).utf8ByteSize = s.utf8ByteSize := by
  rw [lowerAscii, utf8ByteSize_ofList_map_toLower, String.ofList_toList]

theorem upper_lowerAscii (s : String) : upper (lowerAscii s).toList = upper s.toList := by
  rw [toList_lowerAscii, upper, List.flatMap_map, upper]
  congr 1
  exact funext upperChar_toLower

end SchemaCatalog.Text
