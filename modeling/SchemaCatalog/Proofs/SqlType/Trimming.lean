import SchemaCatalog.Proofs.SqlType.Printing
import SchemaCatalog.Proofs.SqlType.Respelling
import SchemaCatalog.Proofs.SqlType.Rescanning

/-!
# White space at the ends of a type expression

An argument type is trimmed before it is read.  The tokens of a trimmed text are those of the text,
counted from the first token; only a backtick that is never closed had taken the white space at the end
into its token.  So a text and its trimmed form are read as the same type, or refused at the same token,
but the error of the trimmed text knows nothing of the white space.
-/

namespace SchemaCatalog

namespace Text

/-- A text without the white space at its ends. -/
def trimmed (s : String) : String :=
  String.ofList (trim s.toList)

/-- The size of the white space at the start of a text. -/
def leadBytes (s : String) : Nat :=
  (String.ofList (s.toList.takeWhile isWhiteSpace)).utf8ByteSize

theorem toList_trimmed (s : String) : (trimmed s).toList = trim s.toList :=
  String.toList_ofList

theorem trim_of_forall {text : List Char} (htext : ∀ c ∈ text, isWhiteSpace c = false) :
    trim text = text := by
  have hstops : ∀ chars : List Char, (∀ c ∈ chars, isWhiteSpace c = false) →
      stops isWhiteSpace chars = true := by
    intro chars hchars
    cases chars with
    | nil => rfl
    | cons c rest => simp [stops, hchars c]
  exact trim_of_stops (hstops text htext)
    (hstops text.reverse fun c hc => htext c (List.mem_reverse.mp hc))

variable {goesOn : Char → Bool}

theorem stops_of_append {text rest : List Char} (h : stops goesOn (text ++ rest) = true) :
    stops goesOn text = true := by
  cases text with
  | nil => rfl
  | cons c text => exact h

theorem stops_append_of_isWhiteSpace {text trail : List Char}
    (hsolid : ∀ c, goesOn c = true → isWhiteSpace c = false) (htext : stops goesOn text = true)
    (htrail : ∀ c ∈ trail, isWhiteSpace c = true) : stops goesOn (text ++ trail) = true := by
  cases text with
  | cons c text => exact htext
  | nil =>
    cases trail with
    | nil => rfl
    | cons c trail =>
      rw [List.nil_append, stops, Bool.not_eq_true', Bool.eq_false_iff]
      intro hc
      have hspace := htrail c List.mem_cons_self
      rw [hsolid c hc] at hspace
      cases hspace

end Text

/-- Tokens behind white space of `lead` bytes, counted from there in a text of `size` bytes. -/
def Respelling.trimming (lead size : Nat) : Respelling :=
  .keepingNames Text.trimmed fun offset => min (offset - lead) size

namespace Lexeme

variable {text after trail : List Char} {lexeme : Lexeme}

theorem stops_backtick (rest : List Char) :
    Text.stops Text.isWhiteSpace (backtick :: rest) = true := by
  rw [Text.stops]
  decide

-- Of a text that does not end in white space every token has a text that does not.
theorem Begins.trimmed_text (h : Begins text lexeme after)
    (hend : Text.stops Text.isWhiteSpace text.reverse = true) :
    Text.trimmed lexeme.text = lexeme.text := by
  have htrim : Text.trim lexeme.text.toList = lexeme.text.toList := by
    cases h with
    | @mark c lexeme after hmark =>
      have hall : ∀ mark ∈ marks, Text.trim mark.2.text.toList = mark.2.text.toList := by decide
      exact hall (c, lexeme) hmark
    | @quoted name after hname =>
      have htext : (Lexeme.quoted (String.ofList name)).text.toList =
          backtick :: (name ++ [backtick]) := by
        simp [Lexeme.text]
      rw [htext]
      exact Text.trim_of_ends (by decide) (by decide)
    | unclosed hrest =>
      rw [Lexeme.text, String.toList_ofList]
      exact Text.trim_of_stops (stops_backtick _) hend
    | identifier hname hafter =>
      rw [Lexeme.text, String.toList_ofList]
      exact Text.trim_of_forall fun _ => Text.isWhiteSpace_of_mem_plainName hname
    | number hdigits hafter =>
      rw [Lexeme.text, String.toList_ofList]
      exact Text.trim_of_forall fun c hc =>
        Text.isWhiteSpace_of_isDigit ((Text.isNumeral_iff.mp hdigits).2 c hc)
    | stray after hstart hspace =>
      rw [Lexeme.text, String.toList_singleton]
      exact Text.trim_of_forall (by simpa using hspace)
  rw [Text.trimmed, htrim, String.ofList_toList]

theorem respell_trimming (lead size : Nat) (h : Text.trimmed lexeme.text = lexeme.text) :
    lexeme.respell (.trimming lead size) = lexeme := by
  cases lexeme with
  | illegal text => exact congrArg illegal h
  | _ => rfl

-- White space behind a text changes its first token only if this is a backtick that is never closed.
theorem Begins.append_isWhiteSpace (lead size : Nat) (h : Begins text lexeme after)
    (hend : Text.stops Text.isWhiteSpace text.reverse = true)
    (htrail : ∀ c ∈ trail, Text.isWhiteSpace c = true) :
    ∃ longer rest, Begins (text ++ trail) longer rest ∧
      longer.respell (.trimming lead size) = lexeme ∧
      (longer = lexeme ∧ rest = after ++ trail ∨ after = [] ∧ rest = []) := by
  have hsame := respell_trimming lead size (h.trimmed_text hend)
  cases h with
  | mark after hmark => exact ⟨_, _, .mark (after ++ trail) hmark, hsame, .inl ⟨rfl, rfl⟩⟩
  | @quoted name after hname =>
    rw [List.cons_append, List.append_assoc, List.cons_append]
    exact ⟨_, _, .quoted (after ++ trail) hname, hsame, .inl ⟨rfl, rfl⟩⟩
  | @unclosed rest hrest =>
    have hopen : backtick ∉ rest ++ trail := by
      rw [List.mem_append, not_or]
      exact ⟨hrest, fun hmem => absurd (htrail _ hmem) (by decide)⟩
    have htrim : Text.trim (backtick :: (rest ++ trail)) = backtick :: rest :=
      @Text.trim_append_of_stops [] (backtick :: rest) trail (by simp) htrail (stops_backtick rest)
        hend
    refine ⟨_, [], .unclosed hopen, ?_, .inr ⟨rfl, rfl⟩⟩
    show illegal (String.ofList (Text.trim (String.ofList (backtick :: (rest ++ trail))).toList)) = _
    rw [String.toList_ofList, htrim]
  | @identifier name after hname hafter =>
    rw [List.append_assoc]
    have hstops := Text.stops_append_of_isWhiteSpace
      (fun _ => Text.isWhiteSpace_of_isNameChar) hafter htrail
    exact ⟨_, _, .identifier hname hstops, hsame, .inl ⟨rfl, rfl⟩⟩
  | @number digits after hdigits hafter =>
    rw [List.append_assoc]
    have hstops := Text.stops_append_of_isWhiteSpace
      (fun _ => Text.isWhiteSpace_of_isDigit) hafter htrail
    exact ⟨_, _, .number hdigits hstops, hsame, .inl ⟨rfl, rfl⟩⟩
  | stray after hstart hspace =>
    exact ⟨_, _, .stray (after ++ trail) hstart hspace, hsame, .inl ⟨rfl, rfl⟩⟩

end Lexeme

namespace Token

variable {trail : List Char}

/-! ## The tokens of a trimmed text -/

-- The induction scans what is left of the trimmed text, with the white space still behind it.
theorem ofTextAt_trimming (start : Nat) {size : Nat} {text : List Char} {position : Nat}
    (htrail : ∀ c ∈ trail, Text.isWhiteSpace c = true)
    (hend : Text.stops Text.isWhiteSpace text.reverse = true)
    (hsize : position + (String.ofList text).utf8ByteSize ≤ size) :
    (ofTextAt (start + position) (text ++ trail)).map (respell (.trimming start size)) =
      ofTextAt position text := by
  induction text using begins_induct generalizing position with
  | nil => rw [List.nil_append, ofTextAt_of_isWhiteSpace htrail, List.map_nil, ofTextAt]
  | space c rest hc ih =>
    rw [List.reverse_cons] at hend
    rw [Text.utf8ByteSize_ofList_cons] at hsize
    rw [List.cons_append, ofTextAt, if_pos hc, ofTextAt, if_pos hc, Nat.add_assoc]
    exact ih (Text.stops_of_append hend) (by omega)
  | token text lexeme after hbegins ih =>
    obtain ⟨longer, rest, hlonger, hrespell, hrest⟩ :=
      hbegins.append_isWhiteSpace start size hend htrail
    have hfirst : respell (.trimming start size) ⟨longer, start + position⟩ =
        ⟨lexeme, position⟩ := by
      have hposition : min (start + position - start) size = position := by omega
      rw [respell, hrespell]
      exact congrArg (Token.mk lexeme) hposition
    rw [ofTextAt_of_begins hlonger, ofTextAt_of_begins hbegins, List.map_cons, hfirst]
    congr 1
    rcases hrest with ⟨rfl, rfl⟩ | ⟨rfl, rfl⟩
    · rw [← hbegins.text_append] at hend hsize
      rw [List.reverse_append] at hend
      rw [Text.utf8ByteSize_ofList_append, String.ofList_toList] at hsize
      rw [Nat.add_assoc]
      exact ih (Text.stops_of_append hend) (by omega)
    · rw [ofTextAt, ofTextAt, List.map_nil]

end Token

/-- The tokens of an input as its trimmed form has them. -/
def Respelling.trimmingOf (input : String) : Respelling :=
  .trimming (Text.leadBytes input) (Text.trimmed input).utf8ByteSize

namespace Token

variable {token : Token} {input : String}

-- An input is its trimmed form between two runs of white space.
theorem exists_eq_trimmed (input : String) :
    ∃ lead trail : String, (∀ c ∈ lead.toList, Text.isWhiteSpace c = true) ∧
      (∀ c ∈ trail.toList, Text.isWhiteSpace c = true) ∧
      lead.utf8ByteSize = Text.leadBytes input ∧ input = lead ++ (Text.trimmed input ++ trail) := by
  obtain ⟨trail, htrail, hinput⟩ := Text.exists_trail input.toList
  refine ⟨String.ofList (input.toList.takeWhile Text.isWhiteSpace), String.ofList trail, ?_, ?_,
    rfl, ?_⟩
  · rw [String.toList_ofList]
    exact List.all_eq_true.mp List.all_takeWhile
  · rwa [String.toList_ofList]
  · rw [Text.trimmed, ← String.ofList_append, ← String.ofList_append, ← hinput,
      String.ofList_toList]

theorem stops_reverse_trimmed (input : String) :
    Text.stops Text.isWhiteSpace (Text.trimmed input).toList.reverse = true := by
  rw [Text.toList_trimmed]
  exact Text.stops_reverse_trim input.toList

theorem list_eq_ofTextAt {lead : String} (hlead : ∀ c ∈ lead.toList, Text.isWhiteSpace c = true)
    (rest : String) : list (lead ++ rest) = ofTextAt lead.utf8ByteSize rest.toList := by
  rw [list, String.toList_append, ofTextAt_append_of_isWhiteSpace hlead, String.ofList_toList,
    Nat.zero_add]

theorem list_trimmed (input : String) :
    list (Text.trimmed input) = (list input).map (respell (.trimmingOf input)) := by
  obtain ⟨lead, trail, hlead, htrail, hsize, hinput⟩ := exists_eq_trimmed input
  have hlist := list_eq_ofTextAt hlead (Text.trimmed input ++ trail)
  rw [← hinput, hsize, String.toList_append] at hlist
  rw [hlist]
  exact (ofTextAt_trimming (Text.leadBytes input) htrail (stops_reverse_trimmed input)
    (by simp)).symm

theorem atEnd_trimmed (input : String) :
    atEnd (Text.trimmed input) = (atEnd input).respell (.trimmingOf input) := by
  obtain ⟨lead, trail, -, -, hsize, hinput⟩ := exists_eq_trimmed input
  have hbytes := congrArg String.utf8ByteSize hinput
  rw [String.utf8ByteSize_append, String.utf8ByteSize_append] at hbytes
  refine congrArg (Token.mk .endOfInput) ?_
  show (Text.trimmed input).utf8ByteSize =
    min (input.utf8ByteSize - Text.leadBytes input) (Text.trimmed input).utf8ByteSize
  omega

/-! ## What an error cites -/

theorem respell_mem_list (h : token ∈ list input) :
    token.respell (.trimmingOf input) ∈ list (Text.trimmed input) := by
  rw [list_trimmed]
  exact List.mem_map_of_mem h

-- The bound in the respelling is for the end of the input: every token starts within the trimmed form.
theorem position_eq_of_mem (h : token ∈ list input) :
    token.position = Text.leadBytes input + (token.respell (.trimmingOf input)).position := by
  have hlead : Text.leadBytes input ≤ token.position := by
    obtain ⟨lead, trail, hlead, -, hsize, hinput⟩ := exists_eq_trimmed input
    have hlist := list_eq_ofTextAt hlead (Text.trimmed input ++ trail)
    rw [← hinput] at hlist
    obtain ⟨front, -, -, -, hposition, -⟩ := exists_begins_of_mem_ofTextAt (hlist ▸ h)
    omega
  have hlt : (token.respell (.trimmingOf input)).position < (Text.trimmed input).utf8ByteSize := by
    obtain ⟨front, rest, after, htext, hposition, hbegins⟩ :=
      exists_begins_of_mem_ofTextAt (respell_mem_list h)
    obtain ⟨c, tail, rfl, -⟩ := hbegins.exists_cons
    have hbytes := congrArg (fun text => (String.ofList text).utf8ByteSize) htext
    rw [String.ofList_toList, Text.utf8ByteSize_ofList_append, Text.utf8ByteSize_ofList_cons]
      at hbytes
    have hpos := c.utf8Size_pos
    omega
  have hmin : (token.respell (.trimmingOf input)).position =
      min (token.position - Text.leadBytes input) (Text.trimmed input).utf8ByteSize := rfl
  omega

-- A token of an input and its counterpart in the trimmed form stand before the same text, but for
-- the white space at the end.
theorem exists_rest_of_mem (h : token ∈ list input) :
    ∃ rest trail after, (∀ c ∈ trail, Text.isWhiteSpace c = true) ∧
      Text.stops Text.isWhiteSpace rest.reverse = true ∧
      Lexeme.Begins rest (token.lexeme.respell (.trimmingOf input)) after ∧
      dropBytes token.position input.toList = rest ++ trail ∧
      dropBytes (token.respell (.trimmingOf input)).position (Text.trimmed input).toList = rest := by
  obtain ⟨lead, trail, -, htrail, hsize, hinput⟩ := exists_eq_trimmed input
  obtain ⟨front, rest, after, htext, hposition, hbegins⟩ :=
    exists_begins_of_mem_ofTextAt (respell_mem_list h)
  rw [Nat.zero_add] at hposition
  have hend := stops_reverse_trimmed input
  rw [htext, List.reverse_append] at hend
  have hplace : token.position = (String.ofList (lead.toList ++ front)).utf8ByteSize := by
    rw [position_eq_of_mem h, hposition, Text.utf8ByteSize_ofList_append, String.ofList_toList, hsize]
  have hchars : input.toList = (lead.toList ++ front) ++ (rest ++ trail.toList) := by
    conv => lhs; rw [hinput]
    rw [String.toList_append, String.toList_append, htext, List.append_assoc, List.append_assoc]
  refine ⟨rest, trail.toList, after, htrail, Text.stops_of_append hend, hbegins, ?_, ?_⟩
  · rw [hplace, hchars, dropBytes_append]
  · rw [hposition, htext, dropBytes_append]

theorem dropBytes_trimmed (h : token ∈ tokenize input) :
    String.ofList (dropBytes (token.respell (.trimmingOf input)).position
        (Text.trimmed input).toList) =
      Text.trimmed (String.ofList (dropBytes token.position input.toList)) := by
  rcases mem_tokenize_iff.mp h with hlist | rfl
  · obtain ⟨rest, trail, after, htrail, hend, hbegins, hdrop, hrest⟩ := exists_rest_of_mem hlist
    obtain ⟨c, tail, rfl, hc⟩ := hbegins.exists_cons
    have htrim := @Text.trim_append_of_stops [] (c :: tail) trail (by simp) htrail
      (by simp [Text.stops, hc]) hend
    rw [hrest, hdrop, Text.trimmed, String.toList_ofList]
    exact congrArg String.ofList htrim.symm
  · have hnone : ∀ text : String, dropBytes (atEnd text).position text.toList = [] := by
      intro text
      have hdrop := dropBytes_append text.toList []
      rwa [String.ofList_toList, List.append_nil] at hdrop
    rw [← atEnd_trimmed, hnone, hnone]
    rfl

theorem text_respell_trimming (h : token ∈ list input) :
    (token.lexeme.respell (.trimmingOf input)).text = Text.trimmed token.lexeme.text := by
  obtain ⟨rest, -, after, -, hend, hbegins, -, -⟩ := exists_rest_of_mem h
  have htrimmed := hbegins.trimmed_text hend
  cases hlexeme : token.lexeme with
  | illegal text => rfl
  | _ =>
    rw [hlexeme] at htrimmed
    exact htrimmed.symm

end Token

/-- An error of an input as its trimmed form has it: what it cites is trimmed, and its position counts
from the end of the white space at the start. -/
def ParseError.trimmed (input : String) (error : ParseError) : ParseError :=
  ⟨error.reason.respell (.trimmingOf input), Text.trimmed error.near,
    min (error.position - Text.leadBytes input) (Text.trimmed input).utf8ByteSize⟩

namespace ParseError

variable {token : Token} {input : String}

theorem fromToken_trimmed (h : token ∈ Token.tokenize input) (reason : ParseReason) :
    fromToken (Text.trimmed input) (token.respell (.trimmingOf input))
        (reason.respell (.trimmingOf input)) =
      (fromToken input token reason).trimmed input :=
  congrArg (ParseError.mk _ · _) (Token.dropBytes_trimmed h)

theorem atToken_trimmed (h : token ∈ Token.tokenize input) (reason : ParseReason) :
    atToken (Text.trimmed input) (token.respell (.trimmingOf input))
        (reason.respell (.trimmingOf input)) =
      (atToken input token reason).trimmed input := by
  refine congrArg (ParseError.mk _ · _) ?_
  rcases Token.mem_tokenize_iff.mp h with hlist | rfl
  · have htrimmed := Token.respell_mem_list hlist
    have hnear : (atToken input token reason).near = token.lexeme.text :=
      if_neg (Token.lexeme_ne_endOfInput hlist)
    rw [if_neg (Token.lexeme_ne_endOfInput htrimmed), hnear]
    exact Token.text_respell_trimming hlist
  · rfl

end ParseError

namespace Parser

theorem cite_trimmed {fault : Fault} {input : String}
    (h : fault.token ∈ Token.tokenize input) :
    (fault.respell (.trimmingOf input)).cite (Text.trimmed input) =
      (fault.cite input).trimmed input := by
  have hcites : (fault.respell (.trimmingOf input)).reason.citesRest = fault.reason.citesRest :=
    ParseReason.citesRest_respell (.trimmingOf input) fault.reason
  rw [Fault.cite, Fault.cite, hcites]
  split
  · exact ParseError.fromToken_trimmed h fault.reason
  · exact ParseError.atToken_trimmed h fault.reason

end Parser

-- A trimmed input is read as the input is, with its errors trimmed.
theorem SqlType.parseWithin_trimmed (limit : Nat) (input : String) :
    parseWithin limit (Text.trimmed input) =
      (parseWithin limit input).mapError (ParseError.trimmed input) := by
  rw [Parser.parseWithin_eq_verdict, Parser.parseWithin_eq_verdict, Token.list_trimmed,
    Token.atEnd_trimmed, Parser.verdict_respell]
  cases hverdict : Parser.verdict limit (Token.list input) (Token.atEnd input) with
  | ok type => exact congrArg Except.ok (mapNames_id type)
  | error fault => exact congrArg Except.error (Parser.cite_trimmed (Parser.verdict_error hverdict))

/-! ## Type expressions as argument types -/

namespace Token

variable {text : List Char}

theorem isWhiteSpace_of_scan_eq_nil (h : scan text = []) :
    ∀ c ∈ text, Text.isWhiteSpace c = true := by
  induction text using begins_induct with
  | nil => simp
  | space c rest hc ih =>
    rw [scan_of_isWhiteSpace hc] at h
    exact List.forall_mem_cons.mpr ⟨hc, ih h⟩
  | token text lexeme after hbegins ih =>
    rw [scan_of_begins hbegins] at h
    cases h

-- A text of one name is one word.
theorem words_of_scan_identifier {name : String} (h : scan text = [.identifier name]) :
    Text.words text = [name.toList] := by
  induction text using begins_induct with
  | nil =>
    rw [scan_nil] at h
    cases h
  | space c rest hc ih =>
    rw [scan_of_isWhiteSpace hc] at h
    exact (Text.words_append_space hc [] rest).trans (ih h)
  | token text lexeme after hbegins ih =>
    rw [scan_of_begins hbegins] at h
    obtain ⟨rfl, hafter⟩ := List.cons.inj h
    cases hbegins with
    | @identifier name after hname hstops =>
      have hne : name ≠ [] := by
        rintro rfl
        cases hname
      rw [Text.words_append_of_isWhiteSpace (isWhiteSpace_of_scan_eq_nil hafter),
        Text.words_singleton hne fun _ => Text.isWhiteSpace_of_mem_plainName hname,
        String.toList_ofList]
    | mark after hmark => simp [Lexeme.marks] at hmark

theorem mem_of_mem_lexemes {input : String} {lexeme : Lexeme} (h : lexeme ∈ lexemes input) {c : Char}
    (hc : c ∈ lexeme.text.toList) : c ∈ input.toList := by
  obtain ⟨token, htoken, rfl⟩ := List.mem_map.mp h
  obtain ⟨before, after, hinput, -, -⟩ := standsIn_of_mem htoken
  rw [hinput, String.toList_append, String.toList_append]
  exact List.mem_append_left _ (List.mem_append_right _ hc)

end Token

namespace ArgumentType

theorem ofWordForm?_eq_none_iff {form : String} :
    ofWordForm? form = none ↔ form ∉ ["TABLE", "VOID", "ANY TYPE"] := by
  rw [List.mem_cons, List.mem_cons, List.mem_singleton, ofWordForm?]
  split
  · simp_all
  split
  · simp_all
  split <;> simp_all

theorem wordForm_trimmed (text : String) : wordForm (Text.trimmed text) = wordForm text := by
  rw [wordForm, wordForm, Text.toList_trimmed, Text.words_trim]

-- The name of a kind is none of the words for other arguments.
theorem ofWordForm?_of_ofName? {name : String} {kind : TypeKind}
    (hkind : TypeKind.ofName? name = some kind) :
    ofWordForm? (String.ofList (Text.upper name.toList)) = none := by
  have hall : ∀ form ∈ ["TABLE", "VOID", "ANY TYPE"], TypeKind.spellings.lookup form = none := by
    decide
  rw [ofWordForm?_eq_none_iff]
  intro hform
  rw [TypeKind.ofName?, hall _ hform] at hkind
  cases hkind

theorem ofWordForm?_of_parse {limit : Nat} {text : String} {type : SqlType}
    (h : SqlType.parseWithin limit text = .ok type) : ofWordForm? (wordForm text) = none := by
  have hderives := (Parser.accept?_start_iff.mp (Parser.parseWithin_eq_ok_iff_accept?.mp h)).1
  have hless : .less ∈ Token.lexemes text → ofWordForm? (wordForm text) = none := fun hmem =>
    ofWordForm?_of_bracket (.inl rfl) (Token.mem_of_mem_lexemes hmem (by decide))
  have hparen : .leftParen ∈ Token.lexemes text → ofWordForm? (wordForm text) = none := fun hmem =>
    ofWordForm?_of_bracket (.inr rfl) (Token.mem_of_mem_lexemes hmem (by decide))
  change Grammar.Derives (Token.lexemes text) type at hderives
  generalize hlexemes : Token.lexemes text = lexemes at hderives hless hparen
  cases hderives with
  | @simple name kind parameters harray hstruct hkind hparameters =>
    cases hparameters with
    | absent =>
      have hwords := Token.words_of_scan_identifier hlexemes
      rw [wordForm, hwords, List.intercalate_singleton]
      exact ofWordForm?_of_ofName? hkind
    | present hlist => exact hparen (by simp)
  | array hname hbody => exact hless (by simp)
  | struct hname hbody => exact hless (by simp)

theorem parse_eq_of_ofWordForm? {text : String} (h : ofWordForm? (wordForm text) = none) :
    parse text = ((SqlType.parse text).map fixed).mapError (ParseError.trimmed text) := by
  have hparse : parse text = (SqlType.parse (Text.trimmed text)).map fixed := by
    rw [← wordForm_trimmed, Text.trimmed] at h
    rw [parse, Text.trimmed]
    simp only [h]
  rw [hparse, SqlType.parse, SqlType.parseWithin_trimmed, SqlType.parse]
  cases SqlType.parseWithin SqlType.defaultMaxDepth text <;> rfl

/-- **Argument types are read as types.** A text that is none of the three words is a type as an
argument if and only if it is one by itself.  If it is none, the error is the one of the text by itself,
trimmed, and this is the same error if there is no white space at the ends of the text.  No type
expression is one of the words. -/
theorem parse_iff_sqlType_parse (text : String) :
    (wordForm text ∉ ["TABLE", "VOID", "ANY TYPE"] →
      (∀ type, parse text = .ok (fixed type) ↔ SqlType.parse text = .ok type) ∧
      (∀ error, parse text = .error error ↔
        ∃ own, SqlType.parse text = .error own ∧ error = own.trimmed text) ∧
      (Text.trim text.toList = text.toList →
        ∀ error, parse text = .error error ↔ SqlType.parse text = .error error)) ∧
    ∀ type, SqlType.parse text = .ok type → wordForm text ∉ ["TABLE", "VOID", "ANY TYPE"] := by
  refine ⟨fun hform => ?_, fun type htype => ?_⟩
  · have hnone := ofWordForm?_eq_none_iff.mpr hform
    have hparse := parse_eq_of_ofWordForm? hnone
    have hsame : Text.trim text.toList = text.toList →
        parse text = (SqlType.parse text).map fixed := by
      intro htrim
      rw [parse, htrim, String.ofList_toList]
      simp only [hnone]
    cases hown : SqlType.parse text with
    | ok read =>
      have hread : parse text = .ok (fixed read) := by
        rw [hparse, hown]
        rfl
      simp [hread]
    | error own =>
      have hfault : parse text = .error (own.trimmed text) := by
        rw [hparse, hown]
        rfl
      refine ⟨by simp [hfault], by simp [hfault, eq_comm], fun htrim error => ?_⟩
      rw [hsame htrim, hown]
      simp [Except.map]
  · exact ofWordForm?_eq_none_iff.mp (ofWordForm?_of_parse htype)

-- A backtick that is never closed takes the white space at the end, unless it is trimmed off before.
theorem parse_iff_sqlType_parse_unclosed :
    (wordForm " ARRAY \x60x " ∉ ["TABLE", "VOID", "ANY TYPE"] ∧
      SqlType.parse " ARRAY \x60x " =
        .error ⟨.expected .arrayOpening (.illegal "\x60x "), "\x60x ", 7⟩ ∧
      parse " ARRAY \x60x " =
        .error ⟨.expected .arrayOpening (.illegal "\x60x"), "\x60x", 6⟩) ∧
    (wordForm "ARRAY< >" ∉ ["TABLE", "VOID", "ANY TYPE"] ∧
      Text.trim "ARRAY< >".toList = "ARRAY< >".toList ∧
      parse "ARRAY< >" = .error ⟨.expected .type .greater, ">", 7⟩) ∧
    SqlType.parse " int64 " = .ok (.simple .int64) ∧
      parse " int64 " = .ok (fixed (.simple .int64)) := by
  have hopen : SqlType.parse " ARRAY \x60x " =
      .error ⟨.expected .arrayOpening (.illegal "\x60x "), "\x60x ", 7⟩ :=
    SqlType.error?_eq_some_iff.mp (by decide +kernel)
  have hopenForm : wordForm " ARRAY \x60x " ∉ ["TABLE", "VOID", "ANY TYPE"] := by decide +kernel
  have hempty : SqlType.parse "ARRAY< >" = .error ⟨.expected .type .greater, ">", 7⟩ :=
    SqlType.error?_eq_some_iff.mp (by decide +kernel)
  have hemptyForm : wordForm "ARRAY< >" ∉ ["TABLE", "VOID", "ANY TYPE"] := by decide +kernel
  have hends : Text.trim "ARRAY< >".toList = "ARRAY< >".toList := by decide +kernel
  have htype : SqlType.parse " int64 " = .ok (.simple .int64) := by
    rw [SqlType.parse, Parser.parseWithin_eq_ok_iff_accept?]
    decide +kernel
  refine ⟨⟨hopenForm, hopen, ?_⟩, ⟨hemptyForm, hends, ?_⟩, htype, ?_⟩
  · exact (((parse_iff_sqlType_parse _).1 hopenForm).2.1 _).mpr ⟨_, hopen, by decide +kernel⟩
  · exact (((parse_iff_sqlType_parse _).1 hemptyForm).2.2 hends _).mpr hempty
  · have htypeForm := (parse_iff_sqlType_parse " int64 ").2 _ htype
    exact (((parse_iff_sqlType_parse _).1 htypeForm).1 _).mpr htype

-- White space at the start moves the error of the text by itself, and not the one of the argument.
theorem position_not_counted_from_start :
    wordForm "  FOO" ∉ ["TABLE", "VOID", "ANY TYPE"] ∧
      SqlType.parse "  FOO" = .error ⟨.unknownType, "FOO", 2⟩ ∧
      parse "  FOO" = .error ⟨.unknownType, "FOO", 0⟩ ∧
      parse "  FOO" ≠ .error ⟨.unknownType, "FOO", 2⟩ := by
  have hform : wordForm "  FOO" ∉ ["TABLE", "VOID", "ANY TYPE"] := by decide +kernel
  have hown : SqlType.parse "  FOO" = .error ⟨.unknownType, "FOO", 2⟩ :=
    SqlType.error?_eq_some_iff.mp (by decide +kernel)
  have hargument : parse "  FOO" = .error ⟨.unknownType, "FOO", 0⟩ := by
    rw [parse_eq_of_ofWordForm? (ofWordForm?_eq_none_iff.mpr hform), hown]
    exact congrArg Except.error (by decide +kernel)
  refine ⟨hform, hown, hargument, ?_⟩
  rw [hargument]
  intro hsame
  cases hsame

end ArgumentType

end SchemaCatalog
