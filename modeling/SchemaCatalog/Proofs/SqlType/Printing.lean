import SchemaCatalog.Proofs.SqlType.Reading
import SchemaCatalog.Proofs.SqlType.Scanning
import SchemaCatalog.Proofs.Text.Words
import SchemaCatalog.Resource.Signature

/-!
# Which types survive printing and reading

A printed type shows its field names as they are.  If all of them are plain names the text scans to
the lexemes of the type, and reading gives the type back.  No other name can come back: the name of a
field that was read is either plain or had been quoted, and a type without backticks in its names
prints no quotes.
-/

namespace SchemaCatalog

namespace SqlType

mutual

/-- Every struct has fields, and the name of every field satisfies a condition. -/
def wellNamed (condition : String → Bool) : SqlType → Bool
  | simple _ => true
  | array element => element.wellNamed condition
  | struct fields => !fields.isEmpty && fieldsWellNamed condition fields
termination_by structural t => t

/-- The same for every field of a struct. -/
def fieldsWellNamed (condition : String → Bool) : List StructField → Bool
  | [] => true
  | ⟨name, type⟩ :: rest =>
    condition name && type.wellNamed condition && fieldsWellNamed condition rest
termination_by structural fields => fields

end

/-- A type whose text shows what it is: structs have fields, and field names are plain. -/
def isPrintable (type : SqlType) : Bool :=
  type.wellNamed fun name => Text.isPlainName name.toList

mutual

/-- The lexemes of the text of a type. -/
def printed : SqlType → List Lexeme
  | simple kind => [.identifier kind.name]
  | array element => .identifier "ARRAY" :: .less :: (element.printed ++ [.greater])
  | struct fields => .identifier "STRUCT" :: .less :: (printedFields fields ++ [.greater])
termination_by structural t => t

/-- The lexemes of the fields of a struct. -/
def printedFields : List StructField → List Lexeme
  | [] => []
  | ⟨name, type⟩ :: rest =>
    .identifier name :: (type.printed ++
      match rest with
      | [] => []
      | _ :: _ => .comma :: printedFields rest)
termination_by structural fields => fields

end

/-! ## The text of a type scans to its lexemes -/

theorem isPlainName_name (kind : TypeKind) : Text.isPlainName kind.name.toList = true := by
  cases kind <;> decide +kernel

theorem endsName_less (rest : List Char) : Text.endsName ('<' :: rest) = true :=
  Text.endsName_cons (Text.isNameChar_of_lt (by decide) (by decide)) rest

theorem endsName_greater (rest : List Char) : Text.endsName ('>' :: rest) = true :=
  Text.endsName_cons (Text.isNameChar_of_lt (by decide) (by decide)) rest

theorem endsName_comma (rest : List Char) : Text.endsName (',' :: rest) = true :=
  Text.endsName_cons (Text.isNameChar_of_lt (by decide) (by decide)) rest

theorem endsName_space (rest : List Char) : Text.endsName (' ' :: rest) = true :=
  Text.endsName_cons (Text.isNameChar_of_lt (by decide) (by decide)) rest

mutual

-- The text of a printable type scans to its lexemes, whatever follows that does not continue a
-- name.
theorem scan_display (type : SqlType) (hprintable : type.isPrintable = true) {rest : List Char}
    (hrest : Text.endsName rest = true) :
    Token.scan (type.display.toList ++ rest) = type.printed ++ Token.scan rest := by
  cases type with
  | simple kind =>
    rw [display, Token.scan_name (isPlainName_name kind) hrest]
    rfl
  | array element =>
    have hkeyword : Text.isPlainName "ARRAY".toList = true := by decide +kernel
    have hbody := scan_display element hprintable (endsName_greater rest)
    have htext : (array element).display.toList ++ rest =
        "ARRAY".toList ++ '<' :: (element.display.toList ++ '>' :: rest) := by
      simp [display]
    rw [htext, Token.scan_name hkeyword (endsName_less _), Token.scan_less, hbody,
      Token.scan_greater, printed]
    simp
  | struct fields =>
    have hkeyword : Text.isPlainName "STRUCT".toList = true := by decide +kernel
    have hfields : fieldsWellNamed (fun name => Text.isPlainName name.toList) fields = true := by
      rw [isPrintable, wellNamed, Bool.and_eq_true] at hprintable
      exact hprintable.2
    have hbody := scan_displayFields fields hfields (endsName_greater rest)
    have htext : (struct fields).display.toList ++ rest =
        "STRUCT".toList ++ '<' ::
          ((", ".intercalate (displayFields fields)).toList ++ '>' :: rest) := by
      simp [display]
    rw [htext, Token.scan_name hkeyword (endsName_less _), Token.scan_less, hbody,
      Token.scan_greater, printed]
    simp

theorem scan_displayFields (fields : List StructField)
    (hfields : fieldsWellNamed (fun name => Text.isPlainName name.toList) fields = true)
    {rest : List Char} (hrest : Text.endsName rest = true) :
    Token.scan ((", ".intercalate (displayFields fields)).toList ++ rest) =
      printedFields fields ++ Token.scan rest := by
  match fields with
  | [] => rw [displayFields, String.intercalate_nil, printedFields]; rfl
  | ⟨name, type⟩ :: more =>
    rw [fieldsWellNamed, Bool.and_eq_true, Bool.and_eq_true] at hfields
    rcases hfields with ⟨⟨hname, htype⟩, hmore⟩
    cases more with
    | nil =>
      have htext : (", ".intercalate (displayFields [⟨name, type⟩])).toList ++ rest =
          name.toList ++ ' ' :: (type.display.toList ++ rest) := by
        simp [displayFields, String.intercalate_singleton]
      rw [htext, Token.scan_name hname (endsName_space _), Token.scan_space,
        scan_display type htype hrest, printedFields]
      simp
    | cons field tail =>
      have hbody := scan_displayFields (field :: tail) hmore hrest
      have htext : (", ".intercalate (displayFields (⟨name, type⟩ :: field :: tail))).toList ++ rest =
          name.toList ++ ' ' :: (type.display.toList ++ ',' :: ' ' ::
            ((", ".intercalate (displayFields (field :: tail))).toList ++ rest)) := by
        have hne : displayFields (field :: tail) ≠ [] := by cases field; simp [displayFields]
        rw [displayFields, String.intercalate_cons_of_ne_nil hne]
        simp
      rw [htext, Token.scan_name hname (endsName_space _), Token.scan_space,
        scan_display type htype (endsName_comma _), Token.scan_comma, Token.scan_space, hbody,
        printedFields]
      simp

end

/-! ## The lexemes of a type derive it -/

theorem upper_name (kind : TypeKind) : Text.upper kind.name.toList = kind.name.toList := by
  have hall : kind.name.toList.all (fun c => c.toNat < 0x61) = true := by
    cases kind <;> decide
  apply Text.upper_of_forall_lt
  exact fun c hc => of_decide_eq_true (List.all_eq_true.mp hall c hc)

theorem ofName?_name (kind : TypeKind) : TypeKind.ofName? kind.name = some kind := by
  rw [TypeKind.ofName?, upper_name, String.ofList_toList]
  cases kind <;> decide

mutual

theorem derives_printed (type : SqlType) {condition : String → Bool}
    (htype : type.wellNamed condition = true) : Grammar.Derives type.printed type := by
  cases type with
  | simple kind =>
    have harray : Text.equalIgnoringAsciiCase kind.name "ARRAY" = false := by
      cases kind <;> decide +kernel
    have hstruct : Text.equalIgnoringAsciiCase kind.name "STRUCT" = false := by
      cases kind <;> decide +kernel
    exact .simple harray hstruct (ofName?_name kind) .absent
  | array element =>
    exact .array (Text.equalIgnoringAsciiCase_refl _) (derives_printed element htype)
  | struct fields =>
    rw [wellNamed, Bool.and_eq_true] at htype
    exact .struct (Text.equalIgnoringAsciiCase_refl _)
      (derivesFields_printedFields fields (by simpa using htype.1) htype.2)

theorem derivesFields_printedFields (fields : List StructField) {condition : String → Bool}
    (hne : fields ≠ []) (hfields : fieldsWellNamed condition fields = true) :
    Grammar.DerivesFields (printedFields fields) fields := by
  match fields with
  | [] => exact absurd rfl hne
  | ⟨name, type⟩ :: more =>
    rw [fieldsWellNamed, Bool.and_eq_true, Bool.and_eq_true] at hfields
    have hbody := derives_printed type hfields.1.2
    cases more with
    | nil =>
      rw [printedFields, List.append_nil]
      exact .one rfl hbody
    | cons field tail =>
      exact .more rfl hbody (derivesFields_printedFields (field :: tail) (by simp) hfields.2)

end

/-! ## The names of a type that was read -/

mutual

-- What holds of all names among the lexemes holds of all field names of the type.
theorem wellNamed_of_derives {lexemes : List Lexeme} {type : SqlType} {condition : String → Bool}
    (h : Grammar.Derives lexemes type)
    (hnames : ∀ lexeme ∈ lexemes, ∀ name, lexeme.fieldName? = some name → condition name = true) :
    type.wellNamed condition = true := by
  cases h with
  | simple => rfl
  | array hname hbody =>
    apply wellNamed_of_derives hbody
    intro lexeme hmem
    exact hnames lexeme (by simp [hmem])
  | struct hname hbody =>
    have hbodyNames := fieldsWellNamed_of_derivesFields hbody fun lexeme hmem =>
      hnames lexeme (by simp [hmem])
    rw [wellNamed, hbodyNames, Bool.and_true]
    cases hbody <;> rfl

theorem fieldsWellNamed_of_derivesFields {lexemes : List Lexeme} {fields : List StructField}
    {condition : String → Bool} (h : Grammar.DerivesFields lexemes fields)
    (hnames : ∀ lexeme ∈ lexemes, ∀ name, lexeme.fieldName? = some name → condition name = true) :
    fieldsWellNamed condition fields = true := by
  cases h with
  | one hname hbody =>
    have htype := wellNamed_of_derives hbody fun lexeme hmem => hnames lexeme (by simp [hmem])
    have hfirst := hnames _ List.mem_cons_self _ hname
    simp only [fieldsWellNamed, hfirst, htype, Bool.and_true]
  | more hname hbody hrest =>
    have htype := wellNamed_of_derives hbody fun lexeme hmem => hnames lexeme (by simp [hmem])
    have hfields := fieldsWellNamed_of_derivesFields hrest fun lexeme hmem =>
      hnames lexeme (by simp [hmem])
    have hfirst := hnames _ List.mem_cons_self _ hname
    simp only [fieldsWellNamed, hfirst, htype, hfields, Bool.and_true]

end

/-- A name without backticks. -/
def isUnquotable (name : String) : Bool :=
  !name.toList.contains backtick

mutual

-- The text of a type has no backticks that its field names do not have.
theorem backtick_notMem_display (type : SqlType) (htype : type.wellNamed isUnquotable = true) :
    backtick ∉ type.display.toList := by
  cases type with
  | simple kind =>
    rw [display]
    cases kind <;> decide
  | array element =>
    have helement := backtick_notMem_display element htype
    have hopening : backtick ∉ "ARRAY<".toList := by decide
    have hclosing : backtick ∉ ">".toList := by decide
    rw [display, String.toList_append, String.toList_append]
    simp only [List.mem_append, not_or]
    exact ⟨⟨hopening, helement⟩, hclosing⟩
  | struct fields =>
    rw [wellNamed, Bool.and_eq_true] at htype
    have hfields := backtick_notMem_displayFields fields htype.2
    have hopening : backtick ∉ "STRUCT<".toList := by decide
    have hclosing : backtick ∉ ">".toList := by decide
    rw [display, String.toList_append, String.toList_append]
    simp only [List.mem_append, not_or]
    exact ⟨⟨hopening, hfields⟩, hclosing⟩

theorem backtick_notMem_displayFields (fields : List StructField)
    (hfields : fieldsWellNamed isUnquotable fields = true) :
    backtick ∉ (", ".intercalate (displayFields fields)).toList := by
  match fields with
  | [] => rw [displayFields, String.intercalate_nil]; decide
  | ⟨name, type⟩ :: more =>
    rw [fieldsWellNamed, Bool.and_eq_true, Bool.and_eq_true] at hfields
    have hname : backtick ∉ name.toList := by simpa [isUnquotable] using hfields.1.1
    have htype := backtick_notMem_display type hfields.1.2
    have hmore := backtick_notMem_displayFields more hfields.2
    have hspace : backtick ∉ " ".toList := by decide
    have hcomma : backtick ∉ ", ".toList := by decide
    have hfield : backtick ∉ (name ++ " " ++ type.display).toList := by
      rw [String.toList_append, String.toList_append]
      simp only [List.mem_append, not_or]
      exact ⟨⟨hname, hspace⟩, htype⟩
    rw [displayFields]
    by_cases hempty : displayFields more = []
    · rw [hempty, String.intercalate_singleton]
      exact hfield
    · rw [String.intercalate_cons_of_ne_nil hempty, String.toList_append, String.toList_append]
      simp only [List.mem_append, not_or]
      exact ⟨⟨hfield, hcomma⟩, hmore⟩

end

-- A type that comes back from its own text is printable.
theorem isPrintable_of_derives_display {type : SqlType}
    (h : Grammar.Derives (Token.scan type.display.toList) type) : type.isPrintable = true := by
  have hunquotable : type.wellNamed isUnquotable = true := by
    apply wellNamed_of_derives h
    intro lexeme hmem name hname
    cases lexeme <;> cases hname
    · -- letters and digits are no backticks
      have hplain := Token.isPlainName_of_mem_scan hmem
      have hbacktick := Text.isNameChar_backtick
      simp only [isUnquotable, List.contains_eq_mem, Bool.not_eq_true', decide_eq_false_iff_not]
      intro hin
      rw [Text.isNameChar_of_mem_plainName hplain hin] at hbacktick
      cases hbacktick
    · simpa [isUnquotable] using (Token.backtick_of_mem_scan hmem).1
  -- without backticks in the text there was no quoted name, so the names are plain
  apply wellNamed_of_derives h
  intro lexeme hmem name hname
  cases lexeme <;> cases hname
  · exact Token.isPlainName_of_mem_scan hmem
  · exact absurd (Token.backtick_of_mem_scan hmem).2 (backtick_notMem_display type hunquotable)

-- The lexemes of the text of a type derive the type if and only if it is printable.
theorem derives_display_iff (type : SqlType) :
    Grammar.Derives (Token.lexemes type.display) type ↔ type.isPrintable = true := by
  rw [Token.lexemes_eq_scan]
  constructor
  · exact isPrintable_of_derives_display
  · intro hprintable
    have hscan := @scan_display type hprintable [] rfl
    rw [List.append_nil, Token.scan_nil, List.append_nil] at hscan
    rw [hscan]
    exact derives_printed type hprintable

theorem parse_display_iff (type : SqlType) :
    parse type.display = .ok type ↔ type.isPrintable = true ∧ type.depth ≤ 256 :=
  (parseWithin_eq_ok_iff defaultMaxDepth type.display type).trans
    (and_congr_left' (derives_display_iff type))

end SqlType

namespace ArgumentType

/-! ## Argument types -/

-- A type prints without white space at its ends.
theorem trim_display (type : SqlType) : Text.trim type.display.toList = type.display.toList := by
  cases type with
  | simple kind =>
    rw [SqlType.display]
    cases kind <;> decide
  | array element =>
    have htext : (SqlType.array element).display.toList =
        'A' :: (("RRAY<".toList ++ element.display.toList) ++ ['>']) := by
      simp [SqlType.display]
    rw [htext]
    exact Text.trim_of_ends (by decide) (by decide)
  | struct fields =>
    have htext : (SqlType.struct fields).display.toList =
        'S' :: (("TRUCT<".toList ++ (", ".intercalate (SqlType.displayFields fields)).toList) ++
          ['>']) := by
      simp [SqlType.display]
    rw [htext]
    exact Text.trim_of_ends (by decide) (by decide)

-- An opening bracket stays in the word form, and the words for other arguments have none.
theorem ofWordForm?_of_bracket {bracket : Char} {text : String}
    (hbracket : bracket = '<' ∨ bracket = '(') (hmem : bracket ∈ text.toList) :
    ofWordForm? (wordForm text) = none := by
  have hform : bracket ∈ (wordForm text).toList := by
    have hspace : Text.isWhiteSpace bracket = false := by rcases hbracket with rfl | rfl <;> decide
    have hlt : bracket.toNat < 0x61 := by rcases hbracket with rfl | rfl <;> decide
    obtain ⟨word, hword, hin⟩ := Text.exists_mem_words hmem hspace
    rw [wordForm, String.toList_ofList, Text.upper, List.mem_flatMap]
    exact ⟨bracket, Text.mem_intercalate hword hin, by simp [Text.upperChar_of_lt hlt]⟩
  have hne : ∀ word : String, '<' ∉ word.toList ∧ '(' ∉ word.toList → wordForm text ≠ word := by
    rintro word ⟨hless, hparen⟩ rfl
    rcases hbracket with rfl | rfl
    · exact hless hform
    · exact hparen hform
  rw [ofWordForm?, if_neg (hne "TABLE" (by decide)), if_neg (hne "VOID" (by decide)),
    if_neg (hne "ANY TYPE" (by decide))]

-- The text of a type is none of the words for other arguments.
theorem ofWordForm?_display (type : SqlType) : ofWordForm? (wordForm type.display) = none := by
  cases type with
  | simple kind =>
    have hwords : Text.words kind.name.toList = [kind.name.toList] := by
      cases kind <;> decide
    rw [SqlType.display, wordForm, hwords, List.intercalate_singleton, SqlType.upper_name,
      String.ofList_toList]
    cases kind <;> decide
  | array element => exact ofWordForm?_of_bracket (.inl rfl) (by simp [SqlType.display])
  | struct fields => exact ofWordForm?_of_bracket (.inl rfl) (by simp [SqlType.display])

-- An argument type is trimmed and compared with the words first, which the text of a type passes.
theorem parse_display_fixed (type : SqlType) :
    parse type.display = (SqlType.parse type.display).map fixed := by
  rw [parse, trim_display, String.ofList_toList]
  simp only [ofWordForm?_display]

/-- A type comes back from its text if and only if it is printable and nests at most 256 deep; among
argument types the words always come back, and a type does if it does as a type. -/
theorem parse_display_eq_ok_iff :
    (∀ type : SqlType, SqlType.parse type.display = .ok type ↔
      type.isPrintable = true ∧ type.depth ≤ 256) ∧
    ∀ argument : ArgumentType, parse argument.display = .ok argument ↔
      argument = relation ∨ argument = void ∨ argument = any ∨
        ∃ type, argument = fixed type ∧ type.isPrintable = true ∧ type.depth ≤ 256 := by
  refine ⟨SqlType.parse_display_iff, ?_⟩
  intro argument
  cases argument with
  | fixed type =>
    rw [display, parse_display_fixed]
    have htype := SqlType.parse_display_iff type
    cases hparse : SqlType.parse type.display with
    | error error =>
      rw [hparse] at htype
      simpa [Except.map] using htype
    | ok read =>
      rw [hparse] at htype
      simpa [Except.map] using htype
  | relation =>
    have hword : parse relation.display = .ok relation := by rfl
    exact ⟨fun _ => .inl rfl, fun _ => hword⟩
  | void =>
    have hword : parse void.display = .ok void := by rfl
    exact ⟨fun _ => .inr (.inl rfl), fun _ => hword⟩
  | any =>
    have hword : parse any.display = .ok any := by rfl
    exact ⟨fun _ => .inr (.inr (.inl rfl)), fun _ => hword⟩

end ArgumentType

end SchemaCatalog
