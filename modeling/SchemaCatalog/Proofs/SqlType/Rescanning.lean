import SchemaCatalog.Proofs.SqlType.Layout

/-!
# What a text begins with decides its tokens

`Begins` says how a token may stand at the front of a text.  The scanner takes this token and no other,
so a text is scanned by giving what it begins with, over and over.  A token ends before a text that
cannot make it longer, and before every such text it is scanned again as it was.
-/

namespace SchemaCatalog

namespace Text

variable {c : Char}

theorem isWhiteSpace_of_isNameChar (hc : isNameChar c = true) : isWhiteSpace c = false := by
  rw [Bool.eq_false_iff]
  intro hspace
  rw [isNameChar_of_isWhiteSpace hspace] at hc
  cases hc

theorem isWhiteSpace_of_mem_plainName {name : List Char} (hname : isPlainName name = true)
    (hc : c ∈ name) : isWhiteSpace c = false :=
  isWhiteSpace_of_isNameChar (isNameChar_of_mem_plainName hname hc)

theorem isWhiteSpace_of_isDigit (hc : isDigit c = true) : isWhiteSpace c = false :=
  isWhiteSpace_of_isNameChar (isNameChar_of_isDigit hc)

end Text

namespace Lexeme

variable {c : Char} {text rest after : List Char} {lexeme : Lexeme}

/-! ## The scanner takes what a text begins with -/

theorem ofText_backtick (rest : List Char) :
    ofText backtick rest = match rest.dropWhile (· != backtick) with
      | [] => (illegal (String.ofList (backtick :: rest)), [])
      | _ :: after => (quoted (String.ofList (rest.takeWhile (· != backtick))), after) := rfl

theorem ofText_of_isDigit (hc : Text.isDigit c = true) (rest : List Char) :
    ofText c rest = (number (String.ofList (c :: rest.takeWhile Text.isDigit)),
      rest.dropWhile Text.isDigit) := by
  have hne : ∀ d, Text.isDigit d = false → c ≠ d := by
    intro d hd heq
    rw [heq, hd] at hc
    cases hc
  rw [ofText, if_neg (hne '<' rfl), if_neg (hne '>' rfl), if_neg (hne '(' rfl),
    if_neg (hne ')' rfl), if_neg (hne ',' rfl), if_neg (hne backtick rfl),
    if_neg (by simp [Text.isLetter_of_isDigit hc]), if_pos hc]

theorem ofText_of_canStart (hc : canStart c = false) (rest : List Char) :
    ofText c rest = (illegal (String.singleton c), rest) := by
  simp only [canStart, marks, List.any_cons, List.any_nil, Bool.or_eq_false_iff,
    beq_eq_false_iff_ne] at hc
  simp [ofText, hc]

theorem Begins.ofText_eq (h : Begins text lexeme after) (htext : text = c :: rest) :
    ofText c rest = (lexeme, after) := by
  cases h with
  | mark after hmark =>
    cases htext
    simp only [marks, List.mem_cons, Prod.mk.injEq, List.not_mem_nil, or_false] at hmark
    rcases hmark with ⟨rfl, rfl⟩ | ⟨rfl, rfl⟩ | ⟨rfl, rfl⟩ | ⟨rfl, rfl⟩ | ⟨rfl, rfl⟩ <;> rfl
  | @quoted name after hname =>
    cases htext
    have hrun : ∀ d ∈ name, (d != backtick) = true := by
      intro d hd
      rw [bne_iff_ne]
      rintro rfl
      exact hname hd
    have hstops : Text.stops (· != backtick) (backtick :: after) = true := by simp [Text.stops]
    rw [ofText_backtick, Text.dropWhile_append_of_stops hrun hstops,
      Text.takeWhile_append_of_stops hrun hstops]
  | unclosed hrest =>
    cases htext
    have hrun : ∀ d ∈ rest, (d != backtick) = true := by
      intro d hd
      rw [bne_iff_ne]
      rintro rfl
      exact hrest hd
    have hdrop := @Text.dropWhile_append_of_stops (· != backtick) rest [] hrun rfl
    rw [List.append_nil] at hdrop
    rw [ofText_backtick, hdrop]
  | @identifier name after hname hafter =>
    cases name with
    | nil => cases hname
    | cons d tail =>
      rw [List.cons_append] at htext
      obtain ⟨rfl, rfl⟩ := List.cons.inj htext
      obtain ⟨hletter, hchars⟩ := Text.isPlainName_cons.mp hname
      rw [ofText_of_isLetter hletter, Text.takeWhile_append_of_stops hchars hafter,
        Text.dropWhile_append_of_stops hchars hafter]
  | @number digits after hdigits hafter =>
    cases digits with
    | nil => cases hdigits
    | cons d tail =>
      rw [List.cons_append] at htext
      obtain ⟨rfl, rfl⟩ := List.cons.inj htext
      obtain ⟨hdigit, htail⟩ := List.forall_mem_cons.mp (Text.isNumeral_iff.mp hdigits).2
      rw [ofText_of_isDigit hdigit, Text.takeWhile_append_of_stops htail hafter,
        Text.dropWhile_append_of_stops htail hafter]
  | stray after hstart hspace =>
    cases htext
    exact ofText_of_canStart hstart rest

-- No token begins with white space.
theorem Begins.exists_cons (h : Begins text lexeme after) :
    ∃ c rest, text = c :: rest ∧ Text.isWhiteSpace c = false := by
  cases h with
  | mark after hmark =>
    have hall : ∀ mark ∈ marks, Text.isWhiteSpace mark.1 = false := by decide
    exact ⟨_, _, rfl, hall _ hmark⟩
  | quoted after hname => exact ⟨_, _, rfl, by decide⟩
  | unclosed hrest => exact ⟨_, _, rfl, by decide⟩
  | @identifier name after hname hafter =>
    cases name with
    | nil => cases hname
    | cons d tail => exact ⟨_, _, rfl, Text.isWhiteSpace_of_mem_plainName hname List.mem_cons_self⟩
  | @number digits after hdigits hafter =>
    cases digits with
    | nil => cases hdigits
    | cons d tail =>
      have hdigit := (Text.isNumeral_iff.mp hdigits).2 d List.mem_cons_self
      exact ⟨_, _, rfl, Text.isWhiteSpace_of_isDigit hdigit⟩
  | stray after hstart hspace => exact ⟨_, _, rfl, hspace⟩

/-! ## Where a token ends -/

/-- The token is as long as it can be in front of a text. -/
def EndsBefore (lexeme : Lexeme) (rest : List Char) : Prop :=
  match lexeme with
  | identifier _ => Text.stops Text.isNameChar rest = true
  | number _ => Text.stops Text.isDigit rest = true
  | illegal text => text.toList.head? = some backtick → rest = []
  | _ => True

theorem endsBefore_nil (lexeme : Lexeme) : lexeme.EndsBefore [] := by
  cases lexeme with
  | illegal text => exact fun _ => rfl
  | identifier name => exact rfl
  | number digits => exact rfl
  | _ => trivial

-- A backtick that is never closed leaves nothing behind.
theorem EndsBefore.space (h : lexeme.EndsBefore after) (hafter : after ≠ [])
    (hc : Text.isWhiteSpace c = true) (rest : List Char) : lexeme.EndsBefore (c :: rest) := by
  have hname := Text.isNameChar_of_isWhiteSpace hc
  cases lexeme with
  | identifier name => simp [EndsBefore, Text.stops, hname]
  | number digits =>
    have hstops : Text.stops Text.isNameChar (c :: rest) = true := by simp [Text.stops, hname]
    exact Text.stops_isDigit_of_stops_isNameChar hstops
  | illegal text => exact fun hopen => absurd (h hopen) hafter
  | _ => trivial

theorem Begins.endsBefore (h : Begins text lexeme after) : lexeme.EndsBefore after := by
  cases h with
  | mark after hmark =>
    simp only [marks, List.mem_cons, Prod.mk.injEq, List.not_mem_nil, or_false] at hmark
    rcases hmark with ⟨-, rfl⟩ | ⟨-, rfl⟩ | ⟨-, rfl⟩ | ⟨-, rfl⟩ | ⟨-, rfl⟩ <;> trivial
  | quoted after hname => trivial
  | unclosed hrest => exact fun _ => rfl
  | identifier hname hafter => exact hafter
  | number hdigits hafter => exact hafter
  | stray after hstart hspace =>
    intro hopen
    rw [String.toList_singleton] at hopen
    cases hopen
    cases hstart

-- A token stays what it is before every text at which it ends.
theorem Begins.of_endsBefore (h : Begins text lexeme after) (hrest : lexeme.EndsBefore rest) :
    Begins (lexeme.text.toList ++ rest) lexeme rest := by
  cases h with
  | mark after hmark =>
    rw [(text_of_mem_marks hmark).1, String.toList_singleton]
    exact .mark rest hmark
  | @quoted name after hname =>
    have htext : (Lexeme.quoted (String.ofList name)).text.toList ++ rest =
        backtick :: (name ++ backtick :: rest) := by
      simp [Lexeme.text]
    rw [htext]
    exact .quoted rest hname
  | @unclosed tail htail =>
    have hnil : rest = [] := hrest (by rw [String.toList_ofList]; rfl)
    rw [hnil, List.append_nil, Lexeme.text, String.toList_ofList]
    exact .unclosed htail
  | identifier hname hafter =>
    rw [Lexeme.text, String.toList_ofList]
    exact .identifier hname hrest
  | number hdigits hafter =>
    rw [Lexeme.text, String.toList_ofList]
    exact .number hdigits hrest
  | stray after hstart hspace =>
    rw [Lexeme.text, String.toList_singleton]
    exact .stray rest hstart hspace

end Lexeme

namespace Token

open Lexeme

variable {text after : List Char} {lexeme : Lexeme}

/-! ## Scanning -/

theorem ofTextAt_of_begins (h : Begins text lexeme after) (position : Nat) :
    ofTextAt position text =
      ⟨lexeme, position⟩ :: ofTextAt (position + lexeme.text.utf8ByteSize) after := by
  obtain ⟨c, rest, rfl, hc⟩ := h.exists_cons
  rw [ofTextAt, if_neg (by simp [hc]), h.ofText_eq rfl]

theorem scan_of_begins (h : Begins text lexeme after) : scan text = lexeme :: scan after := by
  rw [scan, ofTextAt_of_begins h, List.map_cons]
  exact congrArg _ (map_lexeme_ofTextAt _ _ _)

-- Induction along what a text begins with.
theorem begins_induct {motive : List Char → Prop} (nil : motive [])
    (space : ∀ c rest, Text.isWhiteSpace c = true → motive rest → motive (c :: rest))
    (token : ∀ text lexeme after, Begins text lexeme after → motive after → motive text)
    (text : List Char) : motive text := by
  induction text using scan_induct with
  | nil => exact nil
  | space c rest hc ih => exact space c rest hc ih
  | token c rest hc ih => exact token _ _ _ (begins_ofText hc rest) ih

theorem ofTextAt_append_of_isWhiteSpace {gap : List Char}
    (hgap : ∀ c ∈ gap, Text.isWhiteSpace c = true) (position : Nat) (text : List Char) :
    ofTextAt position (gap ++ text) =
      ofTextAt (position + (String.ofList gap).utf8ByteSize) text := by
  induction gap generalizing position with
  | nil => rfl
  | cons c gap ih =>
    obtain ⟨hc, hgap⟩ := List.forall_mem_cons.mp hgap
    rw [List.cons_append, ofTextAt, if_pos hc, ih hgap, Text.utf8ByteSize_ofList_cons,
      Nat.add_assoc]

theorem ofTextAt_of_isWhiteSpace {gap : List Char}
    (hgap : ∀ c ∈ gap, Text.isWhiteSpace c = true) (position : Nat) : ofTextAt position gap = [] := by
  have happend := ofTextAt_append_of_isWhiteSpace hgap position []
  rwa [List.append_nil, ofTextAt] at happend

theorem scan_append_of_isWhiteSpace {gap : List Char}
    (hgap : ∀ c ∈ gap, Text.isWhiteSpace c = true) (text : List Char) :
    scan (gap ++ text) = scan text := by
  rw [scan, ofTextAt_append_of_isWhiteSpace hgap]
  exact map_lexeme_ofTextAt _ _ text

-- A token of an input is what the input begins with at its position.
theorem exists_begins_of_mem_ofTextAt {token : Token} {position : Nat}
    (h : token ∈ ofTextAt position text) :
    ∃ front rest after, text = front ++ rest ∧
      token.position = position + (String.ofList front).utf8ByteSize ∧
      Lexeme.Begins rest token.lexeme after := by
  induction text using begins_induct generalizing position with
  | nil =>
    rw [ofTextAt] at h
    cases h
  | space c rest hc ih =>
    rw [ofTextAt, if_pos hc] at h
    obtain ⟨front, rest, after, rfl, hposition, hbegins⟩ := ih h
    refine ⟨c :: front, rest, after, rfl, ?_, hbegins⟩
    rw [hposition, Text.utf8ByteSize_ofList_cons, Nat.add_assoc]
  | token text lexeme after hbegins ih =>
    rw [ofTextAt_of_begins hbegins] at h
    rcases List.mem_cons.mp h with rfl | hlater
    · exact ⟨[], text, after, rfl, rfl, hbegins⟩
    · obtain ⟨front, rest, after, rfl, hposition, hlater⟩ := ih hlater
      refine ⟨lexeme.text.toList ++ front, rest, after, ?_, ?_, hlater⟩
      · rw [List.append_assoc, hbegins.text_append]
      · rw [hposition, Text.utf8ByteSize_ofList_append, String.ofList_toList, Nat.add_assoc]

end Token

end SchemaCatalog
