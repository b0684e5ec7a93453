import SchemaCatalog.Proofs.SqlType.Grammar

/-!
# The lexemes of a text

Without its positions the token list of a text depends on the characters alone.  `scan` is this list;
its equations take one token off the front of a text.  A name is read whole if what follows it cannot
continue it.  Conversely every identifier is a plain name, and a quoted name holds no backtick but
needs two of them.
-/

namespace SchemaCatalog

namespace Text

-- No white space is a letter.
theorem isWhiteSpace_of_isLetter {c : Char} (h : isLetter c = true) : isWhiteSpace c = false := by
  have hapart : (whiteSpace.all fun space => alphabetic.all fun letters =>
      decide (space.2 < letters.1 ∨ letters.2 < space.1)) = true := by
    decide +kernel
  have hunderscore : isWhiteSpace '_' = false := by decide
  rw [isLetter, Bool.or_eq_true, beq_iff_eq] at h
  rcases h with rfl | h
  · exact hunderscore
  · rw [Bool.eq_false_iff]
    intro hspace
    rcases Intervals.contains_iff.mp h with ⟨letters, hletters, hlo, hhi⟩
    rcases Intervals.contains_iff.mp hspace with ⟨space, hmem, hlo', hhi'⟩
    have hdisjoint := List.all_eq_true.mp (List.all_eq_true.mp hapart space hmem) letters hletters
    have hor := of_decide_eq_true hdisjoint
    omega

-- The underscore apart, all letters come after the digits and most marks in the order of code points.
theorem isLetter_of_lt {c : Char} (h : c.toNat < 0x41) : isLetter c = false := by
  have habove : (alphabetic.all fun letters => Nat.ble 0x41 letters.1) = true := by
    decide +kernel
  rw [Bool.eq_false_iff]
  intro hletter
  rw [isLetter, Bool.or_eq_true, beq_iff_eq] at hletter
  rcases hletter with rfl | hletter
  · exact absurd h (by decide)
  · obtain ⟨letters, hmem, hlo, -⟩ := Intervals.contains_iff.mp hletter
    have hle := Nat.ble_eq.mp (List.all_eq_true.mp habove letters hmem)
    omega

theorem isNameChar_of_lt {c : Char} (h : c.toNat < 0x41) (hdigit : isDigit c = false) :
    isNameChar c = false := by
  rw [isNameChar, isLetter_of_lt h, hdigit]
  rfl

theorem isNameChar_backtick : isNameChar backtick = false := by
  decide +kernel

theorem isNameChar_of_isLetter {c : Char} (h : isLetter c = true) : isNameChar c = true := by
  rw [isNameChar, h, Bool.true_or]

theorem isPlainName_cons {c : Char} {rest : List Char} :
    isPlainName (c :: rest) = true ↔ isLetter c = true ∧ ∀ d ∈ rest, isNameChar d = true := by
  simp [isPlainName]

theorem isNameChar_of_mem_plainName {name : List Char} (hname : isPlainName name = true) {c : Char}
    (hc : c ∈ name) : isNameChar c = true := by
  cases name with
  | nil => cases hname
  | cons first rest =>
    rcases List.mem_cons.mp hc with rfl | hrest
    · exact isNameChar_of_isLetter (isPlainName_cons.mp hname).1
    · exact (isPlainName_cons.mp hname).2 c hrest

/-- Nothing at the start of a text goes on with such characters. -/
def stops (goesOn : Char → Bool) : List Char → Bool
  | [] => true
  | c :: _ => !goesOn c

theorem takeWhile_append_of_stops {goesOn : Char → Bool} {run rest : List Char}
    (hrun : ∀ c ∈ run, goesOn c = true) (hrest : stops goesOn rest = true) :
    (run ++ rest).takeWhile goesOn = run := by
  rw [List.takeWhile_append_of_pos hrun]
  cases rest with
  | nil => simp
  | cons c rest =>
    have hc : goesOn c = false := by simpa [stops] using hrest
    simp [hc]

theorem dropWhile_append_of_stops {goesOn : Char → Bool} {run rest : List Char}
    (hrun : ∀ c ∈ run, goesOn c = true) (hrest : stops goesOn rest = true) :
    (run ++ rest).dropWhile goesOn = rest := by
  rw [List.dropWhile_append_of_pos hrun]
  cases rest with
  | nil => rfl
  | cons c rest =>
    have hc : goesOn c = false := by simpa [stops] using hrest
    simp [hc]

/-- Nothing at the start of a text continues a name. -/
def endsName : List Char → Bool
  | [] => true
  | c :: _ => !isNameChar c

theorem endsName_eq_stops (text : List Char) : endsName text = stops isNameChar text := by
  cases text <;> rfl

theorem endsName_cons {c : Char} (hc : isNameChar c = false) (rest : List Char) :
    endsName (c :: rest) = true := by
  simp [endsName, hc]

end Text

namespace Lexeme

-- A letter starts a name that goes on as far as it can.
theorem ofText_of_isLetter {c : Char} (hc : Text.isLetter c = true) (rest : List Char) :
    ofText c rest = (identifier (String.ofList (c :: rest.takeWhile Text.isNameChar)),
      rest.dropWhile Text.isNameChar) := by
  have hne : ∀ d, Text.isLetter d = false → c ≠ d := by
    intro d hd heq
    rw [heq, hd] at hc
    cases hc
  have hbacktick : Text.isLetter backtick = false := by
    have hname := Text.isNameChar_backtick
    rw [Text.isNameChar, Bool.or_eq_false_iff] at hname
    exact hname.1
  rw [ofText, if_neg (hne '<' (Text.isLetter_of_lt (by decide))),
    if_neg (hne '>' (Text.isLetter_of_lt (by decide))),
    if_neg (hne '(' (Text.isLetter_of_lt (by decide))),
    if_neg (hne ')' (Text.isLetter_of_lt (by decide))),
    if_neg (hne ',' (Text.isLetter_of_lt (by decide))), if_neg (hne backtick hbacktick), if_pos hc]

-- An identifier is a plain name.
theorem isPlainName_of_ofText {c : Char} {rest : List Char} {name : String}
    (h : (ofText c rest).1 = identifier name) : Text.isPlainName name.toList = true := by
  by_cases hc : Text.isLetter c = true
  · rw [ofText_of_isLetter hc] at h
    cases h
    rw [String.toList_ofList, Text.isPlainName_cons]
    exact ⟨hc, fun d hd => List.all_eq_true.mp List.all_takeWhile d hd⟩
  · unfold ofText at h
    repeat' split at h
    all_goals first | exact absurd ‹_› hc | cases h

-- A quoted name starts with a backtick and holds none.
theorem backtick_of_ofText {c : Char} {rest : List Char} {name : String}
    (h : (ofText c rest).1 = quoted name) : c = backtick ∧ backtick ∉ name.toList := by
  have hname : backtick ∉ rest.takeWhile (· != backtick) := by
    intro hmem
    have hne := List.all_eq_true.mp List.all_takeWhile _ hmem
    simp at hne
  by_cases hc : c = backtick
  · refine ⟨hc, ?_⟩
    subst hc
    have htext : ofText backtick rest = match rest.dropWhile (· != backtick) with
        | [] => (illegal (String.ofList (backtick :: rest)), [])
        | _ :: after => (quoted (String.ofList (rest.takeWhile (· != backtick))), after) := rfl
    rw [htext] at h
    split at h
    · cases h
    · cases h
      rwa [String.toList_ofList]
  · unfold ofText at h
    repeat' split at h
    all_goals first | exact absurd ‹_› hc | cases h

end Lexeme

namespace Token

-- The lexemes of a text do not depend on where it starts.
theorem map_lexeme_ofTextAt (position other : Nat) (text : List Char) :
    (ofTextAt position text).map Token.lexeme = (ofTextAt other text).map Token.lexeme := by
  fun_induction ofTextAt position text generalizing other with
  | case1 => simp [ofTextAt]
  | case2 position c rest hspace ih =>
    rw [ofTextAt, if_pos hspace]
    exact ih _
  | case3 position c rest hspace ih =>
    rw [ofTextAt, if_neg hspace, List.map_cons, List.map_cons]
    exact congrArg _ (ih _)

/-- The lexemes of a text. -/
def scan (text : List Char) : List Lexeme :=
  (ofTextAt 0 text).map Token.lexeme

theorem lexemes_eq_scan (input : String) : lexemes input = scan input.toList := rfl

@[simp] theorem scan_nil : scan [] = [] := by
  simp [scan, ofTextAt]

theorem scan_of_isWhiteSpace {c : Char} (hc : Text.isWhiteSpace c = true) (rest : List Char) :
    scan (c :: rest) = scan rest := by
  rw [scan, ofTextAt, if_pos hc]
  exact map_lexeme_ofTextAt _ _ _

theorem scan_cons {c : Char} (hc : Text.isWhiteSpace c = false) (rest : List Char) :
    scan (c :: rest) = (Lexeme.ofText c rest).1 :: scan (Lexeme.ofText c rest).2 := by
  rw [scan, ofTextAt, if_neg (by simp [hc]), List.map_cons]
  exact congrArg _ (map_lexeme_ofTextAt _ _ _)

-- A plain name is one lexeme if what follows does not continue it.
theorem scan_name {name : String} {rest : List Char}
    (hname : Text.isPlainName name.toList = true) (hrest : Text.endsName rest = true) :
    scan (name.toList ++ rest) = .identifier name :: scan rest := by
  cases htext : name.toList with
  | nil => rw [htext] at hname; cases hname
  | cons c tail =>
    rw [htext] at hname
    rcases Text.isPlainName_cons.mp hname with ⟨hc, htail⟩
    rw [Text.endsName_eq_stops] at hrest
    rw [List.cons_append, scan_cons (Text.isWhiteSpace_of_isLetter hc),
      Lexeme.ofText_of_isLetter hc, Text.takeWhile_append_of_stops htail hrest,
      Text.dropWhile_append_of_stops htail hrest, ← htext, String.ofList_toList]

@[simp] theorem scan_less (rest : List Char) : scan ('<' :: rest) = .less :: scan rest :=
  scan_cons (by decide) rest

@[simp] theorem scan_greater (rest : List Char) : scan ('>' :: rest) = .greater :: scan rest :=
  scan_cons (by decide) rest

@[simp] theorem scan_comma (rest : List Char) : scan (',' :: rest) = .comma :: scan rest :=
  scan_cons (by decide) rest

@[simp] theorem scan_space (rest : List Char) : scan (' ' :: rest) = scan rest :=
  scan_of_isWhiteSpace (by decide) rest

-- Induction along the tokens of a text.
theorem scan_induct {motive : List Char → Prop} (nil : motive [])
    (space : ∀ c rest, Text.isWhiteSpace c = true → motive rest → motive (c :: rest))
    (token : ∀ c rest, Text.isWhiteSpace c = false → motive (Lexeme.ofText c rest).2 →
      motive (c :: rest)) (text : List Char) : motive text :=
  ofTextAt.induct (fun _ text => motive text) (fun _ => nil) (fun _ c rest hc => space c rest hc)
    (fun _ c rest hc => token c rest (by simpa using hc)) 0 text

-- What follows a token is part of the text.
theorem mem_of_mem_ofText {c d : Char} {rest : List Char} (h : d ∈ (Lexeme.ofText c rest).2) :
    d ∈ c :: rest := by
  rw [← Lexeme.ofText_text_append c rest]
  exact List.mem_append_right _ h

theorem isPlainName_of_mem_scan {text : List Char} {name : String}
    (h : .identifier name ∈ scan text) : Text.isPlainName name.toList = true := by
  induction text using scan_induct with
  | nil => rw [scan_nil] at h; cases h
  | space c rest hc ih => rw [scan_of_isWhiteSpace hc] at h; exact ih h
  | token c rest hc ih =>
    rw [scan_cons hc] at h
    rcases List.mem_cons.mp h with hfirst | hrest
    · exact Lexeme.isPlainName_of_ofText hfirst.symm
    · exact ih hrest

-- A quoted name holds no backtick, and is read only from a text with backticks.
theorem backtick_of_mem_scan {text : List Char} {name : String} (h : .quoted name ∈ scan text) :
    backtick ∉ name.toList ∧ backtick ∈ text := by
  induction text using scan_induct with
  | nil => rw [scan_nil] at h; cases h
  | space c rest hc ih =>
    rw [scan_of_isWhiteSpace hc] at h
    exact ⟨(ih h).1, List.mem_cons_of_mem c (ih h).2⟩
  | token c rest hc ih =>
    rw [scan_cons hc] at h
    rcases List.mem_cons.mp h with hfirst | hrest
    · rcases Lexeme.backtick_of_ofText hfirst.symm with ⟨rfl, hname⟩
      exact ⟨hname, List.mem_cons_self⟩
    · exact ⟨(ih hrest).1, mem_of_mem_ofText (ih hrest).2⟩

end Token

end SchemaCatalog
