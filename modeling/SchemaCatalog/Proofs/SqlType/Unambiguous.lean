import SchemaCatalog.Proofs.SqlType.Printing

/-!
# Types with the same text

A field name is printed as it is, so it may run into what stands around it: the name `a INT64, b` in
front of `STRING` looks like two fields.  A name does so only if it holds a space together with a comma
or an opening bracket.  Types without such names differ in their texts if they differ at all.
-/

namespace SchemaCatalog

namespace Text

/-- A comma or an opening bracket comes before the first space. -/
def guardsSpace : List Char → Bool
  | [] => true
  | c :: rest => c == ',' || c == '<' || (c != ' ' && guardsSpace rest)

theorem guardsSpace_cons {c : Char} (hc : c ≠ ' ') {rest : List Char}
    (hrest : guardsSpace rest = true) : guardsSpace (c :: rest) = true := by
  simp [guardsSpace, hc, hrest]

theorem guardsSpace_append {front rest : List Char} (hfront : ' ' ∉ front)
    (hrest : guardsSpace rest = true) : guardsSpace (front ++ rest) = true := by
  induction front with
  | nil => exact hrest
  | cons c front ih =>
    rw [List.mem_cons, not_or] at hfront
    exact guardsSpace_cons (Ne.symm hfront.1) (ih hfront.2)

theorem mem_of_guardsSpace {front rest : List Char}
    (h : guardsSpace (front ++ ' ' :: rest) = true) : ',' ∈ front ∨ '<' ∈ front := by
  induction front with
  | nil => cases h
  | cons c front ih =>
    simp only [List.cons_append, guardsSpace, Bool.or_eq_true, Bool.and_eq_true, beq_iff_eq] at h
    rcases h with (rfl | rfl) | ⟨-, hfront⟩
    · exact Or.inl List.mem_cons_self
    · exact Or.inr List.mem_cons_self
    · exact (ih hfront).imp (List.mem_cons_of_mem c) (List.mem_cons_of_mem c)

-- Two names are the same if neither goes on in what follows the other.
theorem eq_of_name_append {first second s t : List Char} (hfirst : ∀ c ∈ first, isNameChar c = true)
    (hsecond : ∀ c ∈ second, isNameChar c = true) (hs : endsName s = true) (ht : endsName t = true)
    (h : first ++ s = second ++ t) : first = second ∧ s = t := by
  have hnames := congrArg (List.takeWhile isNameChar) h
  have hrests := congrArg (List.dropWhile isNameChar) h
  rw [endsName_eq_stops] at hs ht
  rw [takeWhile_append_of_stops hfirst hs, takeWhile_append_of_stops hsecond ht] at hnames
  rw [dropWhile_append_of_stops hfirst hs, dropWhile_append_of_stops hsecond ht] at hrests
  exact ⟨hnames, hrests⟩

end Text

namespace SqlType

/-- A name that can be told from what stands around it: it holds no space, or neither a comma nor an
opening bracket. -/
def isSeparable (name : String) : Bool :=
  !name.toList.contains ' ' || !(name.toList.contains ',' || name.toList.contains '<')

theorem isSeparable_iff {name : String} :
    isSeparable name = true ↔
      (' ' ∈ name.toList → ¬ (',' ∈ name.toList ∨ '<' ∈ name.toList)) := by
  simp only [isSeparable, List.contains_eq_mem, Bool.or_eq_true, Bool.not_eq_true',
    Bool.or_eq_false_iff, decide_eq_false_iff_not, Decidable.imp_iff_not_or, not_or]

-- A longer name would hold the space behind the shorter one, and what guards the next space.
theorem eq_of_separable_append {first second : String} (hfirst : isSeparable first = true)
    (hsecond : isSeparable second = true) {s t : List Char} (hs : Text.guardsSpace s = true)
    (ht : Text.guardsSpace t = true)
    (h : first.toList ++ ' ' :: s = second.toList ++ ' ' :: t) : first = second ∧ s = t := by
  have hsame : ∀ {short long : String} {middle rest after : List Char},
      isSeparable long = true → Text.guardsSpace rest = true →
        long.toList = short.toList ++ middle → ' ' :: rest = middle ++ ' ' :: after →
          short = long ∧ rest = after := by
    intro short long middle rest after hlong hrest hname htext
    cases middle with
    | nil =>
      rw [List.append_nil] at hname
      exact ⟨(String.toList_injective hname).symm, (List.cons.inj htext).2⟩
    | cons c middle =>
      rcases List.cons.inj htext with ⟨rfl, rfl⟩
      have hspace : ' ' ∈ long.toList := by simp [hname]
      have hguard : ',' ∈ long.toList ∨ '<' ∈ long.toList := by
        rw [hname]
        exact (Text.mem_of_guardsSpace hrest).imp
          (fun hmem => by simp [hmem]) (fun hmem => by simp [hmem])
      exact absurd hguard (isSeparable_iff.mp hlong hspace)
  rcases List.append_eq_append_iff.mp h with ⟨middle, hname, htext⟩ | ⟨middle, hname, htext⟩
  · exact hsame hsecond hs hname htext
  · exact (hsame hfirst ht hname htext).imp Eq.symm Eq.symm

/-! ## What may follow a type -/

/-- Does not continue a name, and guards its spaces. -/
structure Follows (rest : List Char) : Prop where
  endsName : Text.endsName rest = true
  guardsSpace : Text.guardsSpace rest = true

/-- The text after a field: the end of the struct, or a comma, the other fields and the end. -/
def afterField : List StructField → List Char → List Char
  | [], rest => '>' :: rest
  | field :: more, rest =>
    ',' :: ' ' :: ((", ".intercalate (displayFields (field :: more))).toList ++ '>' :: rest)

theorem displayFields_cons_append (name : String) (type : SqlType) (more : List StructField)
    (rest : List Char) :
    (", ".intercalate (displayFields (⟨name, type⟩ :: more))).toList ++ '>' :: rest =
      name.toList ++ ' ' :: (type.display.toList ++ afterField more rest) := by
  cases more with
  | nil => simp [displayFields, afterField, String.intercalate_singleton]
  | cons field more =>
    have hne : displayFields (field :: more) ≠ [] := by cases field; simp [displayFields]
    rw [displayFields, String.intercalate_cons_of_ne_nil hne]
    simp [afterField]

theorem follows_afterField (fields : List StructField) {rest : List Char} (h : Follows rest) :
    Follows (afterField fields rest) := by
  cases fields with
  | nil => exact ⟨endsName_greater rest, Text.guardsSpace_cons (by decide) h.guardsSpace⟩
  | cons field more => exact ⟨endsName_comma _, rfl⟩

/-! ## The first word of a type -/

/-- The word that the text of a type begins with. -/
def keyword : SqlType → String
  | simple kind => kind.name
  | array _ => "ARRAY"
  | struct _ => "STRUCT"

/-- The text of a type behind its first word. -/
def body : SqlType → List Char
  | simple _ => []
  | array element => '<' :: (element.display.toList ++ ['>'])
  | struct fields => '<' :: ((", ".intercalate (displayFields fields)).toList ++ ['>'])

theorem toList_display (type : SqlType) :
    type.display.toList = type.keyword.toList ++ type.body := by
  cases type with
  | simple kind => rw [display, keyword, body, List.append_nil]
  | array element => simp [display, keyword, body]
  | struct fields => simp [display, keyword, body]

theorem isPlainName_keyword (type : SqlType) : Text.isPlainName type.keyword.toList = true := by
  have harray : Text.isPlainName "ARRAY".toList = true := by decide +kernel
  have hstruct : Text.isPlainName "STRUCT".toList = true := by decide +kernel
  cases type with
  | simple kind => exact isPlainName_name kind
  | array element => exact harray
  | struct fields => exact hstruct

theorem endsName_body_append (type : SqlType) {rest : List Char}
    (hrest : Text.endsName rest = true) : Text.endsName (type.body ++ rest) = true := by
  cases type with
  | simple kind => exact hrest
  | array element => exact endsName_less _
  | struct fields => exact endsName_less _

-- A bracket comes before the first space of a type.
theorem guardsSpace_display_append (type : SqlType) {rest : List Char}
    (hrest : Text.guardsSpace rest = true) :
    Text.guardsSpace (type.display.toList ++ rest) = true := by
  have hspace : Text.isNameChar ' ' = false := by decide +kernel
  have hkeyword : ' ' ∉ type.keyword.toList := by
    intro hmem
    rw [Text.isNameChar_of_mem_plainName (isPlainName_keyword type) hmem] at hspace
    cases hspace
  rw [toList_display, List.append_assoc]
  apply Text.guardsSpace_append hkeyword
  cases type with
  | simple kind => exact hrest
  | array element => rfl
  | struct fields => rfl

-- The first words of equal texts are equal, whatever follows the types.
theorem keyword_eq_of_display_append {s t : SqlType} {rest after : List Char} (hrest : Follows rest)
    (hafter : Follows after) (h : s.display.toList ++ rest = t.display.toList ++ after) :
    s.keyword = t.keyword ∧ s.body ++ rest = t.body ++ after := by
  have hname : ∀ type : SqlType, ∀ c ∈ type.keyword.toList, Text.isNameChar c = true :=
    fun type c hc => Text.isNameChar_of_mem_plainName (isPlainName_keyword type) hc
  rw [toList_display, toList_display, List.append_assoc, List.append_assoc] at h
  have hparts := Text.eq_of_name_append (hname s) (hname t)
    (endsName_body_append s hrest.endsName) (endsName_body_append t hafter.endsName) h
  exact ⟨String.toList_injective hparts.1, hparts.2⟩

theorem eq_of_name_eq {kind other : TypeKind} (h : kind.name = other.name) : kind = other := by
  have hsame := ofName?_name kind
  rw [h, ofName?_name] at hsame
  exact (Option.some.inj hsame).symm

theorem name_ne_array (kind : TypeKind) : kind.name ≠ "ARRAY" := by
  cases kind <;> decide

theorem name_ne_struct (kind : TypeKind) : kind.name ≠ "STRUCT" := by
  cases kind <;> decide

theorem array_ne_struct : "ARRAY" ≠ "STRUCT" := by
  decide

/-! ## Equal texts -/

mutual

theorem eq_of_display_append (s t : SqlType) (hs : s.wellNamed isSeparable = true)
    (ht : t.wellNamed isSeparable = true) {rest after : List Char} (hrest : Follows rest)
    (hafter : Follows after) (h : s.display.toList ++ rest = t.display.toList ++ after) :
    s = t ∧ rest = after := by
  have hparts := keyword_eq_of_display_append hrest hafter h
  cases s with
  | simple kind =>
    cases t with
    | simple other => exact ⟨congrArg simple (eq_of_name_eq hparts.1), hparts.2⟩
    | array element => exact absurd hparts.1 (name_ne_array kind)
    | struct fields => exact absurd hparts.1 (name_ne_struct kind)
  | array element =>
    cases t with
    | simple kind => exact absurd hparts.1.symm (name_ne_array kind)
    | array other =>
      have hclosed : ∀ {rest : List Char}, Follows rest → Follows ('>' :: rest) :=
        follows_afterField []
      have hbody : element.display.toList ++ '>' :: rest = other.display.toList ++ '>' :: after := by
        simpa [body] using hparts.2
      rcases eq_of_display_append element other hs ht (hclosed hrest) (hclosed hafter) hbody with
        ⟨rfl, htail⟩
      exact ⟨rfl, (List.cons.inj htail).2⟩
    | struct fields => exact absurd hparts.1 array_ne_struct
  | struct fields =>
    cases t with
    | simple kind => exact absurd hparts.1.symm (name_ne_struct kind)
    | array element => exact absurd hparts.1 array_ne_struct.symm
    | struct others =>
      rw [wellNamed, Bool.and_eq_true] at hs ht
      have hbody : afterField fields rest = afterField others after := by
        cases fields with
        | nil => cases hs.1
        | cons field more =>
          cases others with
          | nil => cases ht.1
          | cons other others => simpa [body, afterField] using hparts.2
      rcases eq_of_afterField fields others hs.2 ht.2 hrest hafter hbody with ⟨rfl, htail⟩
      exact ⟨rfl, htail⟩

theorem eq_of_afterField (fields others : List StructField)
    (hfields : fieldsWellNamed isSeparable fields = true)
    (hothers : fieldsWellNamed isSeparable others = true) {rest after : List Char}
    (hrest : Follows rest) (hafter : Follows after)
    (h : afterField fields rest = afterField others after) : fields = others ∧ rest = after := by
  match fields, others with
  | [], [] => exact ⟨rfl, (List.cons.inj h).2⟩
  | [], _ :: _ => exact absurd (List.cons.inj h).1 (by decide)
  | _ :: _, [] => exact absurd (List.cons.inj h).1 (by decide)
  | ⟨name, type⟩ :: more, ⟨other, another⟩ :: others =>
    rw [fieldsWellNamed, Bool.and_eq_true, Bool.and_eq_true] at hfields hothers
    rw [afterField, afterField, displayFields_cons_append, displayFields_cons_append] at h
    have hmore := follows_afterField more hrest
    have hmoreOthers := follows_afterField others hafter
    rcases eq_of_separable_append hfields.1.1 hothers.1.1
        (guardsSpace_display_append type hmore.guardsSpace)
        (guardsSpace_display_append another hmoreOthers.guardsSpace)
        (List.cons.inj (List.cons.inj h).2).2 with ⟨rfl, htypes⟩
    rcases eq_of_display_append type another hfields.1.2 hothers.1.2 hmore hmoreOthers htypes with
      ⟨rfl, htail⟩
    rcases eq_of_afterField more others hfields.2 hothers.2 hrest hafter htail with ⟨rfl, hend⟩
    exact ⟨rfl, hend⟩

end

-- Identifiers hold no space, so only quoted names have to be asked for.
theorem wellNamed_of_parse {input : String} {type : SqlType} (h : parse input = .ok type)
    (hquoted : ∀ name, .quoted name ∈ Token.lexemes input → isSeparable name = true) :
    type.wellNamed isSeparable = true := by
  have hspace : Text.isNameChar ' ' = false := by decide +kernel
  apply wellNamed_of_derives ((parseWithin_eq_ok_iff _ input type).mp h).1
  intro lexeme hmem name hname
  cases lexeme <;> cases hname
  · have hplain := Token.isPlainName_of_mem_scan hmem
    apply isSeparable_iff.mpr
    intro hin
    rw [Text.isNameChar_of_mem_plainName hplain hin] at hspace
    cases hspace
  · exact hquoted name hmem

/-- **Types that were read have different texts if they differ**, as long as no quoted name holds a
space together with a comma or an opening bracket. -/
theorem eq_of_display_eq {first second : String} {s t : SqlType} (hs : parse first = .ok s)
    (ht : parse second = .ok t)
    (hfirst : ∀ name, .quoted name ∈ Token.lexemes first → isSeparable name = true)
    (hsecond : ∀ name, .quoted name ∈ Token.lexemes second → isSeparable name = true)
    (h : s.display = t.display) : s = t := by
  have hend : Follows [] := ⟨rfl, rfl⟩
  exact (eq_of_display_append s t (wellNamed_of_parse hs hfirst) (wellNamed_of_parse ht hsecond)
    hend hend (congrArg (String.toList · ++ []) h)).1

-- With a space, an opening bracket is as ambiguous as a comma.
example :
    (struct [⟨"a", struct [⟨"b", simple .int64⟩, ⟨"c STRUCT<d", simple .int64⟩]⟩]).display =
      (struct [⟨"a STRUCT<b", simple .int64⟩, ⟨"c", struct [⟨"d", simple .int64⟩]⟩]).display := by
  rfl

-- A comma does no harm if the name holds no space.
theorem eq_of_display_eq_quoted :
    ∃ s t, parse "STRUCT<\x60a,b\x60 INT64>" = .ok s ∧
      parse "struct<\x60a,b\x60 integer>" = .ok t ∧
      (∀ name, .quoted name ∈ Token.lexemes "STRUCT<\x60a,b\x60 INT64>" →
        isSeparable name = true) ∧
      s.display = t.display ∧ s = t := by
  have hread : ∀ {input text : String}, (parse input).toOption.map display = some text →
      ∃ type, parse input = .ok type ∧ type.display = text := by
    intro input text h
    cases hparse : parse input with
    | error error =>
      rw [hparse] at h
      cases h
    | ok type =>
      rw [hparse] at h
      exact ⟨type, rfl, Option.some.inj h⟩
  have hquoted : ∀ {lexemes : List Lexeme},
      (lexemes.filterMap Lexeme.fieldName?).all isSeparable = true →
        ∀ name, .quoted name ∈ lexemes → isSeparable name = true := by
    intro lexemes h name hmem
    exact List.all_eq_true.mp h name (List.mem_filterMap.mpr ⟨_, hmem, rfl⟩)
  have hfirst := @hquoted (Token.lexemes "STRUCT<\x60a,b\x60 INT64>") (by decide +kernel)
  have hsecond := @hquoted (Token.lexemes "struct<\x60a,b\x60 integer>") (by decide +kernel)
  rcases @hread "STRUCT<\x60a,b\x60 INT64>" "STRUCT<a,b INT64>"
    (by decide +kernel) with ⟨s, hs, hstext⟩
  rcases @hread "struct<\x60a,b\x60 integer>" "STRUCT<a,b INT64>"
    (by decide +kernel) with ⟨t, ht, httext⟩
  have hsame : s.display = t.display := hstext.trans httext.symm
  exact ⟨s, t, hs, ht, hfirst, hsame, eq_of_display_eq hs ht hfirst hsecond hsame⟩

-- The quoted name holds the text of a field and the start of another.
theorem display_eq_of_quoted_separator :
    (parse "STRUCT<\x60a INT64, b\x60 STRING>").toOption =
        some (struct [⟨"a INT64, b", simple .string⟩]) ∧
      (parse "STRUCT<a INT64, b STRING>").toOption =
        some (struct [⟨"a", simple .int64⟩, ⟨"b", simple .string⟩]) ∧
      (struct [⟨"a INT64, b", simple .string⟩]).display =
        (struct [⟨"a", simple .int64⟩, ⟨"b", simple .string⟩]).display ∧
      struct [⟨"a INT64, b", simple .string⟩] ≠
        struct [⟨"a", simple .int64⟩, ⟨"b", simple .string⟩] := by
  decide +kernel

end SqlType

end SchemaCatalog
