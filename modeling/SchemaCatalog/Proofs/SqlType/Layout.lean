import SchemaCatalog.Proofs.SqlType.Scanning

/-!
# How tokens lie in the input

The tokens of an input stand in it one behind the other, and what is between them is white space.
Every name and every number is as long as it can be.  All of this is one property, `Laid`, of a text
and its tokens; it is shown by one induction along the scanner, and the statements about positions,
order and gaps are read off it.
-/

namespace SchemaCatalog

namespace Text

/-- Digits, at least one. -/
def isNumeral (text : List Char) : Bool :=
  !text.isEmpty && text.all isDigit

/-- A run between two texts that neither of them can make longer. -/
def IsMaximalRun (isRun : List Char → Bool) (before run after : List Char) : Prop :=
  isRun run = true ∧
    ∀ left right, left <:+ before → right <+: after → isRun (left ++ run ++ right) = true →
      left = [] ∧ right = []

/-! ## Characters of names and numbers -/

theorem isNumeral_iff {text : List Char} :
    isNumeral text = true ↔ text ≠ [] ∧ ∀ c ∈ text, isDigit c = true := by
  simp [isNumeral]

theorem isNameChar_of_isDigit {c : Char} (h : isDigit c = true) : isNameChar c = true := by
  rw [isNameChar, h, Bool.or_true]

theorem toNat_of_isDigit {c : Char} (h : isDigit c = true) : 0x30 ≤ c.toNat ∧ c.toNat ≤ 0x39 := by
  rw [isDigit, Bool.and_eq_true, decide_eq_true_eq, decide_eq_true_eq] at h
  exact h

theorem isLetter_of_isDigit {c : Char} (h : isDigit c = true) : isLetter c = false := by
  have hbounds := toNat_of_isDigit h
  exact isLetter_of_lt (by omega)

theorem not_isPlainName_of_digits {text : List Char} (h : ∀ c ∈ text, isDigit c = true) :
    isPlainName text ≠ true := by
  intro hname
  cases text with
  | nil => cases hname
  | cons c rest =>
    have hletter := (isPlainName_cons.mp hname).1
    rw [isLetter_of_isDigit (h c List.mem_cons_self)] at hletter
    cases hletter

theorem isPlainName_of_append {left right : List Char} (hleft : left ≠ [])
    (h : isPlainName (left ++ right) = true) : isPlainName left = true := by
  cases left with
  | nil => exact absurd rfl hleft
  | cons c rest =>
    obtain ⟨hletter, hchars⟩ := isPlainName_cons.mp h
    exact isPlainName_cons.mpr ⟨hletter, fun d hd => hchars d (List.mem_append_left right hd)⟩

theorem isNameChar_of_isWhiteSpace {c : Char} (h : isWhiteSpace c = true) :
    isNameChar c = false := by
  have hspaces : (whiteSpace.all fun space => decide (space.2 < 0x30 ∨ 0x39 < space.1)) = true := by
    decide
  obtain ⟨space, hmem, hlo, hhi⟩ := Intervals.contains_iff.mp h
  have hapart := of_decide_eq_true (List.all_eq_true.mp hspaces space hmem)
  rw [Bool.eq_false_iff]
  intro hname
  rw [isNameChar, Bool.or_eq_true] at hname
  rcases hname with hletter | hdigit
  · rw [isWhiteSpace_of_isLetter hletter] at h
    cases h
  · have hbounds := toNat_of_isDigit hdigit
    omega

theorem utf8ByteSize_ofList_cons (c : Char) (rest : List Char) :
    (String.ofList (c :: rest)).utf8ByteSize = c.utf8Size + (String.ofList rest).utf8ByteSize := by
  rw [String.ofList_cons, String.utf8ByteSize_append, String.utf8ByteSize_singleton]

theorem utf8ByteSize_ofList_append (front rest : List Char) :
    (String.ofList (front ++ rest)).utf8ByteSize =
      (String.ofList front).utf8ByteSize + (String.ofList rest).utf8ByteSize := by
  rw [String.ofList_append, String.utf8ByteSize_append]

theorem stops_dropWhile (goesOn : Char → Bool) (text : List Char) :
    stops goesOn (text.dropWhile goesOn) = true := by
  have hhead := List.head?_dropWhile_not goesOn text
  cases hdrop : text.dropWhile goesOn with
  | nil => rfl
  | cons c rest =>
    rw [hdrop] at hhead
    simpa [stops] using hhead

theorem eq_nil_of_stops {goesOn : Char → Bool} {text run : List Char}
    (hstops : stops goesOn text = true) (hrun : run <+: text)
    (hall : ∀ c ∈ run, goesOn c = true) : run = [] := by
  cases run with
  | nil => rfl
  | cons c run =>
    obtain ⟨rest, rfl⟩ := hrun
    have hc := hall c List.mem_cons_self
    simp [stops, hc] at hstops

theorem stops_isDigit_of_stops_isNameChar {text : List Char}
    (h : stops isNameChar text = true) : stops isDigit text = true := by
  cases text with
  | nil => rfl
  | cons c rest =>
    have hc : isNameChar c = false := by simpa [stops] using h
    have hdigit : isDigit c = false := by
      rw [Bool.eq_false_iff]
      intro hdigit
      rw [isNameChar_of_isDigit hdigit] at hc
      cases hc
    simp [stops, hdigit]

/-! ## Texts that may be cut in two -/

/-- No name and no number at the end of the first text goes on in the second. -/
structure Settled (before after : List Char) : Prop where
  name : ∀ run, run <:+ before → isPlainName run = true → stops isNameChar after = true
  number : ∀ run, run <:+ before → isNumeral run = true → stops isDigit after = true

theorem settled_nil_left (after : List Char) : Settled [] after := by
  constructor
  · intro run hrun hname
    rw [List.suffix_nil.mp hrun] at hname
    cases hname
  · intro run hrun hnumber
    rw [List.suffix_nil.mp hrun] at hnumber
    cases hnumber

theorem settled_nil_right (before : List Char) : Settled before [] :=
  ⟨fun _ _ _ => rfl, fun _ _ _ => rfl⟩

-- Neither a name nor a number ends in such a character.
theorem settled_concat {c : Char} (hc : isNameChar c = false) (before after : List Char) :
    Settled (before ++ [c]) after := by
  have hmem : ∀ run, run <:+ before ++ [c] → run ≠ [] → c ∈ run := by
    intro run hrun hne
    rcases List.suffix_concat_iff.mp hrun with rfl | ⟨front, rfl, -⟩
    · exact absurd rfl hne
    · simp
  constructor
  · intro run hrun hname
    have hne : run ≠ [] := by
      rintro rfl
      cases hname
    rw [isNameChar_of_mem_plainName hname (hmem run hrun hne)] at hc
    cases hc
  · intro run hrun hnumber
    obtain ⟨hne, hdigits⟩ := isNumeral_iff.mp hnumber
    rw [isNameChar_of_isDigit (hdigits c (hmem run hrun hne))] at hc
    cases hc

variable {before run after : List Char}

-- A name that reaches into a number would start before it, and would not have ended there.
theorem not_isPlainName_of_suffix {digits : List Char} (h : Settled before (digits ++ after))
    (hdigits : isNumeral digits = true) (hrun : run <:+ before ++ digits) :
    isPlainName run ≠ true := by
  intro hname
  obtain ⟨hne, hall⟩ := isNumeral_iff.mp hdigits
  obtain ⟨front, hfront⟩ := hrun
  rcases List.append_eq_append_iff.mp hfront.symm with ⟨inside, -, hinside⟩ | ⟨left, hleft, rfl⟩
  · have hdigit : ∀ c ∈ run, isDigit c = true := fun c hc =>
      hall c (hinside ▸ List.mem_append_right inside hc)
    exact not_isPlainName_of_digits hdigit hname
  · by_cases hnil : left = []
    · subst hnil
      exact not_isPlainName_of_digits hall hname
    · have hstops := h.name left ⟨front, hleft.symm⟩ (isPlainName_of_append hnil hname)
      exact hne (eq_nil_of_stops hstops (List.prefix_append digits after)
        fun c hc => isNameChar_of_isDigit (hall c hc))

theorem isMaximalRun_plainName (h : Settled before (run ++ after)) (hrun : isPlainName run = true)
    (hafter : stops isNameChar after = true) : IsMaximalRun isPlainName before run after := by
  refine ⟨hrun, fun left right hleft hright hwhole => ⟨?_, ?_⟩⟩
  · refine Decidable.byContradiction fun hnil => ?_
    have hname : isPlainName left = true := by
      rw [List.append_assoc] at hwhole
      exact isPlainName_of_append hnil hwhole
    have hempty := eq_nil_of_stops (h.name left hleft hname) (List.prefix_append run after)
      fun c hc => isNameChar_of_mem_plainName hrun hc
    rw [hempty] at hrun
    cases hrun
  · exact eq_nil_of_stops hafter hright
      fun c hc => isNameChar_of_mem_plainName hwhole (List.mem_append_right _ hc)

theorem isMaximalRun_numeral (h : Settled before (run ++ after)) (hrun : isNumeral run = true)
    (hafter : stops isDigit after = true) : IsMaximalRun isNumeral before run after := by
  obtain ⟨hne, hdigits⟩ := isNumeral_iff.mp hrun
  refine ⟨hrun, fun left right hleft hright hwhole => ?_⟩
  have hall := (isNumeral_iff.mp hwhole).2
  constructor
  · refine Decidable.byContradiction fun hnil => ?_
    have hnumeral : isNumeral left = true :=
      isNumeral_iff.mpr ⟨hnil, fun c hc => hall c (by simp [hc])⟩
    have hstops := h.number left hleft hnumeral
    exact hne (eq_nil_of_stops hstops (List.prefix_append run after) hdigits)
  · exact eq_nil_of_stops hafter hright fun c hc => hall c (List.mem_append_right _ hc)

end Text

namespace Lexeme

/-- The characters that are tokens by themselves. -/
def marks : List (Char × Lexeme) :=
  [('<', less), ('>', greater), ('(', leftParen), (')', rightParen), (',', comma)]

/-- A character with which a token can start that is not illegal. -/
def canStart (c : Char) : Bool :=
  marks.any (c == ·.1) || c == backtick || Text.isLetter c || Text.isDigit c

/-- What a text begins with, and what follows. -/
inductive Begins : List Char → Lexeme → List Char → Prop where
  | mark {c : Char} {lexeme : Lexeme} (after : List Char) (hmark : (c, lexeme) ∈ marks) :
      Begins (c :: after) lexeme after
  | quoted {name : List Char} (after : List Char) (hname : backtick ∉ name) :
      Begins (backtick :: (name ++ backtick :: after)) (quoted (String.ofList name)) after
  | unclosed {rest : List Char} (hrest : backtick ∉ rest) :
      Begins (backtick :: rest) (illegal (String.ofList (backtick :: rest))) []
  | identifier {name after : List Char} (hname : Text.isPlainName name = true)
      (hafter : Text.stops Text.isNameChar after = true) :
      Begins (name ++ after) (identifier (String.ofList name)) after
  | number {digits after : List Char} (hdigits : Text.isNumeral digits = true)
      (hafter : Text.stops Text.isDigit after = true) :
      Begins (digits ++ after) (number (String.ofList digits)) after
  | stray {c : Char} (after : List Char) (hstart : canStart c = false)
      (hspace : Text.isWhiteSpace c = false) :
      Begins (c :: after) (illegal (String.singleton c)) after

theorem begins_ofText {c : Char} (hc : Text.isWhiteSpace c = false) (rest : List Char) :
    Begins (c :: rest) (ofText c rest).1 (ofText c rest).2 := by
  unfold ofText
  split
  · subst c; exact .mark rest (by simp [marks])
  split
  · subst c; exact .mark rest (by simp [marks])
  split
  · subst c; exact .mark rest (by simp [marks])
  split
  · subst c; exact .mark rest (by simp [marks])
  split
  · subst c; exact .mark rest (by simp [marks])
  split
  · subst c
    have hsplit := List.takeWhile_append_dropWhile (p := (· != backtick)) (l := rest)
    have hname : backtick ∉ rest.takeWhile (· != backtick) := by
      intro hmem
      have hne := List.all_eq_true.mp List.all_takeWhile _ hmem
      simp at hne
    split
    · rename_i hdrop
      rw [hdrop, List.append_nil] at hsplit
      rw [hsplit] at hname
      exact .unclosed hname
    · rename_i d after hdrop
      have hd : d = backtick := by
        have hhead := List.head?_dropWhile_not (· != backtick) rest
        rw [hdrop] at hhead
        simpa using hhead
      rw [hdrop, hd] at hsplit
      have hquoted := Begins.quoted after hname
      rwa [hsplit] at hquoted
  split
  · rename_i hletter
    have hname : Text.isPlainName (c :: rest.takeWhile Text.isNameChar) = true :=
      Text.isPlainName_cons.mpr ⟨hletter, fun d hd => List.all_eq_true.mp List.all_takeWhile d hd⟩
    have hidentifier := Begins.identifier hname (Text.stops_dropWhile Text.isNameChar rest)
    rwa [List.cons_append, List.takeWhile_append_dropWhile] at hidentifier
  split
  · rename_i hdigit
    have hdigits : Text.isNumeral (c :: rest.takeWhile Text.isDigit) = true := by
      refine Text.isNumeral_iff.mpr ⟨List.cons_ne_nil _ _, ?_⟩
      rw [List.forall_mem_cons]
      exact ⟨hdigit, fun d hd => List.all_eq_true.mp List.all_takeWhile d hd⟩
    have hnumber := Begins.number hdigits (Text.stops_dropWhile Text.isDigit rest)
    rwa [List.cons_append, List.takeWhile_append_dropWhile] at hnumber
  · exact .stray rest (by simp_all [canStart, marks]) hc

/-- A token as it may stand between two texts.  The text of a quoted name is the name between two
backticks. -/
def FormedBetween (before : List Char) (lexeme : Lexeme) (after : List Char) : Prop :=
  match lexeme with
  | identifier name => Text.IsMaximalRun Text.isPlainName before name.toList after
  | number digits => Text.IsMaximalRun Text.isNumeral before digits.toList after
  | quoted name => backtick ∉ name.toList
  | illegal text =>
    (∃ c, text = String.singleton c ∧ canStart c = false ∧ Text.isWhiteSpace c = false) ∨
      ∃ rest, text = String.ofList (backtick :: rest) ∧ backtick ∉ rest ∧ after = []
  | endOfInput => False
  | _ => True

-- The text of such a token is its character, which belongs to no name.
theorem text_of_mem_marks {mark : Char × Lexeme} (h : mark ∈ marks) :
    mark.2.text = String.singleton mark.1 ∧ Text.isNameChar mark.1 = false := by
  have hall : ∀ mark ∈ marks, mark.2.text = String.singleton mark.1 ∧ mark.1.toNat < 0x41 ∧
      Text.isDigit mark.1 = false := by
    decide
  obtain ⟨htext, hlt, hdigit⟩ := hall mark h
  exact ⟨htext, Text.isNameChar_of_lt hlt hdigit⟩

theorem isNameChar_of_canStart {c : Char} (h : canStart c = false) :
    Text.isNameChar c = false := by
  simp only [canStart, Bool.or_eq_false_iff] at h
  rw [Text.isNameChar, h.1.2, h.2]
  rfl

variable {before text after : List Char} {lexeme : Lexeme}

theorem Begins.text_append (h : Begins text lexeme after) :
    lexeme.text.toList ++ after = text := by
  cases h with
  | mark after hmark =>
    rw [(text_of_mem_marks hmark).1]
    simp
  | quoted after hname => simp [Lexeme.text]
  | unclosed hrest => simp [Lexeme.text]
  | identifier hname hafter => simp [Lexeme.text]
  | number hdigits hafter => simp [Lexeme.text]
  | stray after hstart hspace => simp [Lexeme.text]

theorem Begins.text_ne_empty (h : Begins text lexeme after) : lexeme.text ≠ "" := by
  intro hempty
  have happend := h.text_append
  rw [hempty] at happend
  cases h with
  | mark after hmark => simp at happend
  | quoted after hname =>
    have hlength := congrArg List.length happend
    simp at hlength
    omega
  | unclosed hrest => simp at happend
  | identifier hname hafter =>
    have hnil : _ = [] := List.self_eq_append_left.mp happend
    rw [hnil] at hname
    cases hname
  | number hdigits hafter =>
    have hnil : _ = [] := List.self_eq_append_left.mp happend
    exact (Text.isNumeral_iff.mp hdigits).1 hnil
  | stray after hstart hspace => simp at happend

-- What was settled before the token is settled after it.
theorem Begins.settled (h : Begins text lexeme after) (hbefore : Text.Settled before text) :
    Text.Settled (before ++ lexeme.text.toList) after := by
  cases h with
  | mark after hmark =>
    obtain ⟨htext, hc⟩ := text_of_mem_marks hmark
    rw [htext, String.toList_singleton]
    exact Text.settled_concat hc before after
  | @quoted name after hname =>
    have htext :
        (Lexeme.quoted (String.ofList name)).text.toList = backtick :: name ++ [backtick] := by
      simp [Lexeme.text]
    rw [htext, ← List.append_assoc]
    exact Text.settled_concat Text.isNameChar_backtick _ after
  | unclosed hrest => exact Text.settled_nil_right _
  | identifier hname hafter =>
    exact ⟨fun _ _ _ => hafter, fun _ _ _ => Text.stops_isDigit_of_stops_isNameChar hafter⟩
  | @number digits after hdigits hafter =>
    rw [Lexeme.text, String.toList_ofList]
    refine ⟨fun run hrun hname => ?_, fun _ _ _ => hafter⟩
    exact (Text.not_isPlainName_of_suffix hbefore hdigits hrun hname).elim
  | stray after hstart hspace =>
    rw [Lexeme.text, String.toList_singleton]
    exact Text.settled_concat (isNameChar_of_canStart hstart) before after

theorem Begins.formedBetween (h : Begins text lexeme after) (hbefore : Text.Settled before text) :
    lexeme.FormedBetween before after := by
  cases h with
  | mark after hmark =>
    simp only [marks, List.mem_cons, Prod.mk.injEq, List.not_mem_nil, or_false] at hmark
    rcases hmark with ⟨-, rfl⟩ | ⟨-, rfl⟩ | ⟨-, rfl⟩ | ⟨-, rfl⟩ | ⟨-, rfl⟩ <;> trivial
  | quoted after hname =>
    show backtick ∉ (String.ofList _).toList
    rwa [String.toList_ofList]
  | unclosed hrest => exact Or.inr ⟨_, rfl, hrest, rfl⟩
  | @identifier name after hname hafter =>
    show Text.IsMaximalRun Text.isPlainName before (String.ofList name).toList after
    rw [String.toList_ofList]
    exact Text.isMaximalRun_plainName hbefore hname hafter
  | @number digits after hdigits hafter =>
    show Text.IsMaximalRun Text.isNumeral before (String.ofList digits).toList after
    rw [String.toList_ofList]
    exact Text.isMaximalRun_numeral hbefore hdigits hafter
  | stray after hstart hspace => exact Or.inl ⟨_, rfl, hstart, hspace⟩

end Lexeme

namespace Token

/-- The offset of the byte behind a token. -/
def stop (token : Token) : Nat :=
  token.position + token.lexeme.text.utf8ByteSize

/-- The tokens of a text that follows a part already read.  Each token starts where that part ends,
and what is read without giving a token is white space. -/
inductive Laid : String → List Char → List Token → Prop where
  | done (before : String) : Laid before [] []
  | space {before : String} {c : Char} {rest : List Char} {tokens : List Token}
      (hspace : Text.isWhiteSpace c = true) (hrest : Laid (before.push c) rest tokens) :
      Laid before (c :: rest) tokens
  | token {before : String} {lexeme : Lexeme} {after : List Char} {tokens : List Token}
      (hne : lexeme.text ≠ "") (hformed : lexeme.FormedBetween before.toList after)
      (hafter : Laid (before ++ lexeme.text) after tokens) :
      Laid before (lexeme.text.toList ++ after) (⟨lexeme, before.utf8ByteSize⟩ :: tokens)

theorem laid_ofTextAt {before : String} {text : List Char}
    (hbefore : Text.Settled before.toList text) :
    Laid before text (ofTextAt before.utf8ByteSize text) := by
  induction text using scan_induct generalizing before with
  | nil =>
    rw [ofTextAt]
    exact .done before
  | space c rest hc ih =>
    rw [ofTextAt, if_pos hc, ← String.utf8ByteSize_push]
    refine .space hc (ih ?_)
    rw [String.toList_push]
    exact Text.settled_concat (Text.isNameChar_of_isWhiteSpace hc) before.toList rest
  | token c rest hc ih =>
    have hbegins := Lexeme.begins_ofText hc rest
    have hsettled : Text.Settled (before ++ (Lexeme.ofText c rest).1.text).toList
        (Lexeme.ofText c rest).2 := by
      rw [String.toList_append]
      exact hbegins.settled hbefore
    have hlaid := Laid.token hbegins.text_ne_empty (hbegins.formedBetween hbefore) (ih hsettled)
    rw [ofTextAt, if_neg (by simp [hc]), ← String.utf8ByteSize_append]
    rwa [hbegins.text_append] at hlaid

/-! ## What a layout says about its tokens -/

/-- The token is part of the input at its position, and formed as it has to be there. -/
def StandsIn (token : Token) (input : String) : Prop :=
  ∃ before after, input = before ++ token.lexeme.text ++ after ∧
    before.utf8ByteSize = token.position ∧ token.lexeme.FormedBetween before.toList after.toList

variable {input before : String} {text : List Char} {tokens : List Token} {token : Token}

-- The bytes between the two ends of a token are those of its text.
theorem StandsIn.extract_eq (h : token.StandsIn input) :
    input.toByteArray.extract token.position token.stop = token.lexeme.text.toByteArray := by
  obtain ⟨before, after, rfl, hposition, -⟩ := h
  have hstop : token.stop = before.toByteArray.size + token.lexeme.text.toByteArray.size := by
    rw [stop, ← hposition, String.size_toByteArray, String.size_toByteArray]
  rw [hstop, ← hposition, ← String.size_toByteArray, String.toByteArray_append,
    String.toByteArray_append, ByteArray.extract_append, ByteArray.extract_append_eq_right rfl rfl,
    ByteArray.size_append, Nat.sub_self, ByteArray.extract_eq_empty_iff.mpr (by simp),
    ByteArray.append_empty]

-- Both ends of a token lie between characters.
theorem StandsIn.isValid (h : token.StandsIn input) :
    (⟨token.position⟩ : String.Pos.Raw).IsValid input ∧
      (⟨token.stop⟩ : String.Pos.Raw).IsValid input := by
  obtain ⟨before, after, rfl, hposition, -⟩ := h
  constructor
  · refine String.Pos.Raw.isValid_iff_exists_append.mpr
      ⟨before, token.lexeme.text ++ after, String.append_assoc, ?_⟩
    rw [← hposition]
    rfl
  · refine String.Pos.Raw.isValid_iff_exists_append.mpr
      ⟨before ++ token.lexeme.text, after, rfl, ?_⟩
    rw [stop, ← hposition, ← String.utf8ByteSize_append]
    rfl

theorem Laid.text_ne_empty (h : Laid before text tokens) (htoken : token ∈ tokens) :
    token.lexeme.text ≠ "" := by
  induction h with
  | done before => cases htoken
  | space hspace hrest ih => exact ih htoken
  | token hne hformed hafter ih =>
    rcases List.mem_cons.mp htoken with rfl | hlater
    · exact hne
    · exact ih hlater

theorem Laid.standsIn (h : Laid before text tokens) (htoken : token ∈ tokens) :
    token.StandsIn (before ++ String.ofList text) := by
  induction h with
  | done before => cases htoken
  | @space before c rest tokens hspace hrest ih =>
    have hstands := ih htoken
    rwa [String.push_eq_append, String.append_assoc, ← String.ofList_cons] at hstands
  | @token before lexeme after tokens hne hformed hafter ih =>
    have hinput : before ++ String.ofList (lexeme.text.toList ++ after) =
        before ++ lexeme.text ++ String.ofList after := by
      rw [String.ofList_append, String.ofList_toList, String.append_assoc]
    rw [hinput]
    rcases List.mem_cons.mp htoken with rfl | hlater
    · exact ⟨before, String.ofList after, rfl, rfl, by rwa [String.toList_ofList]⟩
    · exact ih hlater

theorem Laid.size_le_position (h : Laid before text tokens) (htoken : token ∈ tokens) :
    before.utf8ByteSize ≤ token.position := by
  induction h with
  | done before => cases htoken
  | space hspace hrest ih =>
    have hle := ih htoken
    rw [String.utf8ByteSize_push] at hle
    omega
  | token hne hformed hafter ih =>
    rcases List.mem_cons.mp htoken with rfl | hlater
    · exact Nat.le_refl _
    · have hle := ih hlater
      rw [String.utf8ByteSize_append] at hle
      omega

theorem Laid.pairwise (h : Laid before text tokens) :
    tokens.Pairwise fun token next => token.stop ≤ next.position := by
  induction h with
  | done before => exact List.Pairwise.nil
  | space hspace hrest ih => exact ih
  | token hne hformed hafter ih =>
    refine List.pairwise_cons.mpr ⟨fun next hnext => ?_, ih⟩
    have hle := hafter.size_le_position hnext
    rwa [String.utf8ByteSize_append] at hle

-- A character of the text is white space or part of a token.
theorem Laid.isWhiteSpace_or_mem (h : Laid before text tokens) {front back : List Char} {c : Char}
    (htext : text = front ++ c :: back) :
    Text.isWhiteSpace c = true ∨ ∃ token ∈ tokens,
      token.position ≤ (before ++ String.ofList front).utf8ByteSize ∧
        (before ++ String.ofList front).utf8ByteSize < token.stop := by
  induction h generalizing front with
  | done before => simp at htext
  | @space before d rest tokens hspace hrest ih =>
    cases front with
    | nil =>
      cases htext
      exact .inl hspace
    | cons e front =>
      cases htext
      have hcovered := ih rfl
      rwa [String.push_eq_append, String.append_assoc, ← String.ofList_cons] at hcovered
  | @token before lexeme after tokens hne hformed hafter ih =>
    have hside : (∃ between, front = lexeme.text.toList ++ between ∧ after = between ++ c :: back) ∨
        ∃ within, lexeme.text.toList = front ++ c :: within := by
      rcases List.append_eq_append_iff.mp htext with hbehind | ⟨within, hlexeme, hrest⟩
      · exact .inl hbehind
      · rcases List.cons_eq_append_iff.mp hrest with ⟨rfl, hafter⟩ | ⟨within, rfl, -⟩
        · exact .inl ⟨[], by simp [hlexeme], hafter⟩
        · exact .inr ⟨within, hlexeme⟩
    rcases hside with ⟨between, rfl, hlater⟩ | ⟨within, hwithin⟩
    · rcases ih hlater with hspace | ⟨token, htoken, hspan⟩
      · exact .inl hspace
      · refine .inr ⟨token, List.mem_cons_of_mem _ htoken, ?_⟩
        rwa [String.ofList_append, String.ofList_toList, ← String.append_assoc]
    · have hsize : lexeme.text.utf8ByteSize =
          (String.ofList front).utf8ByteSize + (String.ofList (c :: within)).utf8ByteSize := by
        rw [← String.utf8ByteSize_append, ← String.ofList_append, ← hwithin, String.ofList_toList]
      rw [Text.utf8ByteSize_ofList_cons] at hsize
      have hpos := c.utf8Size_pos
      refine .inr ⟨_, List.mem_cons_self, ?_⟩
      rw [String.utf8ByteSize_append]
      dsimp only [stop]
      omega

/-! ## The tokens of an input -/

-- The rest of a text from the end of its first part on is the second.
theorem dropBytes_append (front rest : List Char) :
    dropBytes (String.ofList front).utf8ByteSize (front ++ rest) = rest := by
  induction front with
  | nil => cases rest <;> rfl
  | cons c front ih =>
    have hpos := c.utf8Size_pos
    rw [Text.utf8ByteSize_ofList_cons, List.cons_append, dropBytes, if_neg (by omega),
      Nat.add_sub_cancel_left, ih]

theorem mem_tokenize_iff : token ∈ tokenize input ↔ token ∈ list input ∨ token = atEnd input := by
  rw [tokenize, List.mem_append, List.mem_singleton]

theorem laid_list (input : String) : Laid "" input.toList (list input) :=
  laid_ofTextAt (Text.settled_nil_left input.toList)

theorem standsIn_of_mem (h : token ∈ list input) : token.StandsIn input := by
  have hstands := (laid_list input).standsIn h
  rwa [String.ofList_toList, String.empty_append] at hstands

theorem lexeme_ne_endOfInput (h : token ∈ list input) : token.lexeme ≠ .endOfInput := by
  intro hend
  refine (laid_list input).text_ne_empty h ?_
  rw [hend]
  rfl

theorem position_lt_stop (h : token ∈ list input) : token.position < token.stop := by
  have hne := (laid_list input).text_ne_empty h
  have hpos : token.lexeme.text.utf8ByteSize ≠ 0 :=
    fun hzero => hne (String.utf8ByteSize_eq_zero_iff.mp hzero)
  rw [stop]
  omega

-- No two tokens start at one place.
theorem pairwise_position (input : String) :
    (list input).Pairwise fun token next => token.position < next.position :=
  (laid_list input).pairwise.imp_of_mem fun htoken _ hle =>
    Nat.lt_of_lt_of_le (position_lt_stop htoken) hle

-- A token of the list and the one for the end of the input cut the input in two.
theorem eq_append_dropBytes_of_mem (h : token ∈ tokenize input) :
    ∃ before, input = before ++ String.ofList (dropBytes token.position input.toList) ∧
      before.utf8ByteSize = token.position := by
  have hcut : ∃ before after, input = before ++ after ∧ before.utf8ByteSize = token.position := by
    rcases mem_tokenize_iff.mp h with hlist | rfl
    · obtain ⟨before, after, hinput, hposition, -⟩ := standsIn_of_mem hlist
      exact ⟨before, token.lexeme.text ++ after, by rw [hinput, String.append_assoc], hposition⟩
    · exact ⟨input, "", String.append_empty.symm, rfl⟩
  obtain ⟨before, after, rfl, hposition⟩ := hcut
  refine ⟨before, ?_, hposition⟩
  have hrest := dropBytes_append before.toList after.toList
  rw [String.ofList_toList, hposition] at hrest
  rw [String.toList_append, hrest, String.ofList_toList]

/-- Tokens that make up an input together with the white space between them. -/
structure Covers (tokens : List Token) (input : String) : Prop where
  text_ne_empty : ∀ token ∈ tokens, token.lexeme.text ≠ ""
  standsIn : ∀ token ∈ tokens, token.StandsIn input
  bytes : ∀ token ∈ tokens,
    input.toByteArray.extract token.position token.stop = token.lexeme.text.toByteArray
  boundaries : ∀ token ∈ tokens, (⟨token.position⟩ : String.Pos.Raw).IsValid input ∧
    (⟨token.stop⟩ : String.Pos.Raw).IsValid input
  ordered : tokens.Pairwise fun token next => token.stop ≤ next.position
  gaps : ∀ before c after, input = before ++ String.singleton c ++ after →
    Text.isWhiteSpace c = true ∨ ∃ token ∈ tokens,
      token.position ≤ before.utf8ByteSize ∧ before.utf8ByteSize < token.stop

theorem covers_list (input : String) : Covers (list input) input where
  text_ne_empty _ htoken := (laid_list input).text_ne_empty htoken
  standsIn _ htoken := standsIn_of_mem htoken
  bytes _ htoken := (standsIn_of_mem htoken).extract_eq
  boundaries _ htoken := (standsIn_of_mem htoken).isValid
  ordered := (laid_list input).pairwise
  gaps before c after hinput := by
    have htext : input.toList = before.toList ++ c :: after.toList := by
      rw [hinput]
      simp
    have hcovered := (laid_list input).isWhiteSpace_or_mem htext
    rwa [String.ofList_toList, String.empty_append] at hcovered

/-- **No character is lost.** The tokens of an input are those that cover it and one for its end, and
at each of them the input can be cut. -/
theorem tokenize_lossless (input : String) :
    ∃ tokens, tokenize input = tokens ++ [⟨.endOfInput, input.utf8ByteSize⟩] ∧
      (∀ token ∈ tokens, token.lexeme ≠ .endOfInput) ∧ Covers tokens input ∧
      ∀ token ∈ tokenize input,
        ∃ before, input = before ++ String.ofList (dropBytes token.position input.toList) ∧
          before.utf8ByteSize = token.position := by
  exact ⟨list input, rfl, fun _ htoken => lexeme_ne_endOfInput htoken, covers_list input,
    fun _ htoken => eq_append_dropBytes_of_mem htoken⟩

end Token

end SchemaCatalog
