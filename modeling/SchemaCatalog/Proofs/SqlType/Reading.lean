import SchemaCatalog.Proofs.SqlType.Grammar
import SchemaCatalog.Proofs.SqlType.Transition

/-!
# The reader accepts the grammar

`Reads` says which lexemes finish a state: what is still missing of the innermost open type, then
what `Closes` the types around it.  Every move of the reader keeps this relation in both directions,
so a run from the start accepts exactly the lists that derive a type, as far as the limit allows.
-/

namespace SchemaCatalog.Parser

open Grammar

/-- The lexemes after a field: the end of the struct, or a comma, more fields and the end. -/
inductive FieldsRest : List Lexeme → List StructField → List Lexeme → Prop where
  | close {rest : List Lexeme} : FieldsRest (.greater :: rest) [] rest
  | more {body rest : List Lexeme} {fields : List StructField}
      (hbody : DerivesFields body fields) :
      FieldsRest (.comma :: (body ++ .greater :: rest)) fields rest

/-- The lexemes that finish the open types around a type that is complete. -/
def Closes : List Frame → SqlType → List Lexeme → SqlType → Prop
  | [], type, lexemes, result => lexemes = [] ∧ result = type
  | .array :: outer, type, lexemes, result =>
    ∃ rest, lexemes = .greater :: rest ∧ Closes outer (.array type) rest result
  | .struct fields name :: outer, type, lexemes, result =>
    ∃ more rest, FieldsRest lexemes more rest ∧
      Closes outer (.struct (fields ++ ⟨name, type⟩ :: more)) rest result

/-- The lexemes that finish a state. -/
def Reads (state : State) (lexemes : List Lexeme) (result : SqlType) : Prop :=
  match state.next with
  | .type =>
    ∃ body rest type, lexemes = body ++ rest ∧ Derives body type ∧
      Closes state.opened type rest result
  | .arrayOpening =>
    ∃ body rest type, lexemes = .less :: (body ++ .greater :: rest) ∧ Derives body type ∧
      Closes state.opened (.array type) rest result
  | .structOpening =>
    ∃ body rest fields, lexemes = .less :: (body ++ .greater :: rest) ∧
      DerivesFields body fields ∧ Closes state.opened (.struct fields) rest result
  | .fieldName done =>
    ∃ body rest fields, lexemes = body ++ .greater :: rest ∧ DerivesFields body fields ∧
      Closes state.opened (.struct (done ++ fields)) rest result
  | .afterKind kind =>
    ∃ body rest, lexemes = body ++ rest ∧ Parameters body ∧
      Closes state.opened (.simple kind) rest result
  | .parameter kind =>
    ∃ body rest, lexemes = body ++ .rightParen :: rest ∧ ParameterList body ∧
      Closes state.opened (.simple kind) rest result
  | .afterParameter kind =>
    ∃ body rest, lexemes = body ++ .rightParen :: rest ∧
      (body = [] ∨ ∃ list, body = .comma :: list ∧ ParameterList list) ∧
      Closes state.opened (.simple kind) rest result
  | .afterType type => Closes state.opened type lexemes result

-- After a complete type the types around it may be finished at once.
theorem Closes.reads {opened : List Frame} {next : Expectation} {type result : SqlType}
    {lexemes : List Lexeme} (h : Closes opened type lexemes result)
    (hcomplete : next.complete? = some type) : Reads ⟨opened, next⟩ lexemes result := by
  cases next with
  | afterKind kind =>
    cases hcomplete
    exact ⟨[], lexemes, rfl, .absent, h⟩
  | afterType whole =>
    cases hcomplete
    exact h
  | _ => cases hcomplete

/-! ## What the reader accepts derives a type -/

-- A type and the lexemes around its struct belong to the fields of the struct.
theorem FieldsRest.derivesFields {lexeme : Lexeme} {name : String} {body lexemes rest : List Lexeme}
    {type : SqlType} {more : List StructField} (h : FieldsRest lexemes more rest)
    (hname : lexeme.fieldName? = some name) (hbody : Derives body type) :
    ∃ fields, lexeme :: (body ++ lexemes) = fields ++ .greater :: rest ∧
      DerivesFields fields (⟨name, type⟩ :: more) := by
  cases h with
  | close => exact ⟨lexeme :: body, rfl, .one hname hbody⟩
  | more hmore =>
    refine ⟨_, ?_, .more hname hbody hmore⟩
    simp

-- What finishes a state after a move finishes the state before it.
theorem Step.reads {limit : Nat} {state next : State} {lexeme : Lexeme} {rest : List Lexeme}
    {result : SqlType} (h : Step limit state lexeme next) (hreads : Reads next rest result) :
    Reads state (lexeme :: rest) result := by
  cases h with
  | array hroom hname =>
    rcases hreads with ⟨body, tail, type, rfl, hbody, hcloses⟩
    exact ⟨_, tail, _, by simp, .array hname hbody, hcloses⟩
  | struct hroom harray hname =>
    rcases hreads with ⟨body, tail, fields, rfl, hbody, hcloses⟩
    exact ⟨_, tail, _, by simp, .struct hname hbody, hcloses⟩
  | kind hroom harray hstruct hkind =>
    rcases hreads with ⟨body, tail, rfl, hbody, hcloses⟩
    exact ⟨_, tail, _, rfl, .simple harray hstruct hkind hbody, hcloses⟩
  | openArray =>
    rcases hreads with ⟨body, _, type, rfl, hbody, tail, rfl, hcloses⟩
    exact ⟨body, tail, type, rfl, hbody, hcloses⟩
  | openStruct =>
    rcases hreads with ⟨body, tail, fields, rfl, hbody, hcloses⟩
    exact ⟨body, tail, fields, rfl, hbody, hcloses⟩
  | field hname =>
    rcases hreads with ⟨body, lexemes, type, rfl, hbody, more, tail, hrest, hcloses⟩
    rcases hrest.derivesFields hname hbody with ⟨fields, heq, hfields⟩
    exact ⟨fields, tail, _, heq, hfields, hcloses⟩
  | openParameters =>
    rcases hreads with ⟨list, tail, rfl, hlist, hcloses⟩
    exact ⟨_, tail, by simp, .present hlist, hcloses⟩
  | @parameter _ _ lexeme hparameter =>
    rcases hreads with ⟨body, tail, rfl, hbody, hcloses⟩
    rcases hbody with rfl | ⟨list, rfl, hlist⟩
    · exact ⟨[lexeme], tail, rfl, .one hparameter, hcloses⟩
    · exact ⟨lexeme :: .comma :: list, tail, rfl, .more hparameter hlist, hcloses⟩
  | nextParameter =>
    rcases hreads with ⟨list, tail, rfl, hlist, hcloses⟩
    exact ⟨.comma :: list, tail, rfl, .inr ⟨list, rfl, hlist⟩, hcloses⟩
  | closeParameters => exact ⟨[], rest, rfl, .inl rfl, hreads⟩
  | closeArray hcomplete =>
    have hcloses : Closes (.array :: _) _ (.greater :: rest) result := ⟨rest, rfl, hreads⟩
    exact hcloses.reads hcomplete
  | closeStruct hcomplete =>
    have hcloses : Closes (.struct _ _ :: _) _ (.greater :: rest) result :=
      ⟨[], rest, .close, hreads⟩
    exact hcloses.reads hcomplete
  | nextField hcomplete =>
    rcases hreads with ⟨body, tail, fields, rfl, hbody, houter⟩
    have hcloses : Closes (.struct _ _ :: _) _ (.comma :: (body ++ .greater :: tail)) result :=
      ⟨fields, tail, .more hbody, by simpa using houter⟩
    exact hcloses.reads hcomplete

theorem reads_of_accept? {limit : Nat} {state : State} {lexemes : List Lexeme} {type : SqlType}
    (h : accept? limit state lexemes = some type) : Reads state lexemes type := by
  induction lexemes generalizing state with
  | nil =>
    rcases complete?_eq_some_iff.mp h with ⟨hopened, hcomplete⟩
    rcases state with ⟨opened, next⟩
    dsimp only at hopened hcomplete
    subst hopened
    have hcloses : Closes [] type [] type := ⟨rfl, rfl⟩
    exact hcloses.reads hcomplete
  | cons lexeme rest ih =>
    rw [accept?] at h
    split at h
    · exact (advance?_eq_some_iff.mp ‹_›).reads (ih h)
    · cases h

/-! ## What derives a type is accepted within its depth -/

-- The types around a complete type make the whole as much deeper.
theorem Closes.depth_le {opened : List Frame} {type result : SqlType} {lexemes : List Lexeme}
    (h : Closes opened type lexemes result) : opened.length + type.depth ≤ result.depth := by
  induction opened generalizing type lexemes with
  | nil =>
    rcases h with ⟨-, rfl⟩
    simp
  | cons frame outer ih =>
    cases frame with
    | array =>
      rcases h with ⟨rest, -, hcloses⟩
      have hle := ih hcloses
      simp only [SqlType.depth, List.length_cons] at hle ⊢
      omega
    | struct fields name =>
      rcases h with ⟨more, rest, -, hcloses⟩
      have hle := ih hcloses
      simp only [SqlType.depth, SqlType.fieldsDepth_append, SqlType.fieldsDepth,
        List.length_cons] at hle ⊢
      omega

-- Where a type is expected there is room for it.
theorem Closes.length_lt {opened : List Frame} {type result : SqlType} {lexemes : List Lexeme}
    {limit : Nat} (h : Closes opened type lexemes result) (hdepth : result.depth ≤ limit) :
    opened.length < limit := by
  have hle := h.depth_le
  have hpos := type.depth_pos
  omega

-- A lexeme after a complete type closes the innermost open type or starts its next field.
theorem Closes.step {limit : Nat} {opened : List Frame} {next : Expectation}
    {type result : SqlType} {lexeme : Lexeme} {rest : List Lexeme}
    (h : Closes opened type (lexeme :: rest) result) (hcomplete : next.complete? = some type) :
    ∃ state, Step limit ⟨opened, next⟩ lexeme state ∧ Reads state rest result := by
  match opened, h with
  | [], ⟨hnil, _⟩ => cases hnil
  | .array :: outer, ⟨tail, heq, hcloses⟩ =>
    cases heq
    exact ⟨_, .closeArray hcomplete, hcloses⟩
  | .struct fields name :: outer, ⟨more, tail, hrest, hcloses⟩ =>
    cases hrest with
    | close => exact ⟨_, .closeStruct hcomplete, hcloses⟩
    | more hbody =>
      refine ⟨_, .nextField hcomplete, _, tail, more, rfl, hbody, ?_⟩
      simpa using hcloses

-- An array keyword is no struct keyword.
theorem struct_ne_array {name : String} (h : Text.equalIgnoringAsciiCase name "STRUCT" = true) :
    Text.equalIgnoringAsciiCase name "ARRAY" = false := by
  simp only [Text.equalIgnoringAsciiCase, beq_iff_eq] at h
  simp only [Text.equalIgnoringAsciiCase, h]
  decide

-- The first lexeme of what finishes a state is a move, and the others finish the state after it.
theorem Reads.step {limit : Nat} {state : State} {lexeme : Lexeme} {rest : List Lexeme}
    {result : SqlType} (h : Reads state (lexeme :: rest) result) (hdepth : result.depth ≤ limit) :
    ∃ next, Step limit state lexeme next ∧ Reads next rest result := by
  rcases state with ⟨opened, next⟩
  cases next with
  | type =>
    rcases h with ⟨body, tail, type, heq, hbody, hcloses⟩
    have hroom := hcloses.length_lt hdepth
    cases hbody with
    | simple harray hstruct hkind hparameters =>
      cases heq
      exact ⟨_, .kind hroom harray hstruct hkind, _, tail, rfl, hparameters, hcloses⟩
    | array hname helement =>
      cases heq
      exact ⟨_, .array hroom hname, _, tail, _, by simp, helement, hcloses⟩
    | struct hname hfields =>
      cases heq
      exact ⟨_, .struct hroom (struct_ne_array hname) hname, _, tail, _, by simp, hfields, hcloses⟩
  | arrayOpening =>
    rcases h with ⟨body, tail, type, heq, hbody, hcloses⟩
    cases heq
    exact ⟨_, .openArray, body, _, type, rfl, hbody, tail, rfl, hcloses⟩
  | structOpening =>
    rcases h with ⟨body, tail, fields, heq, hbody, hcloses⟩
    cases heq
    exact ⟨_, .openStruct, body, tail, fields, rfl, hbody, hcloses⟩
  | fieldName done =>
    rcases h with ⟨body, tail, fields, heq, hbody, hcloses⟩
    cases hbody with
    | one hname htype =>
      cases heq
      exact ⟨_, .field hname, _, _, _, rfl, htype, [], tail, .close, hcloses⟩
    | more hname htype hmore =>
      simp only [List.cons_append, List.append_assoc, List.cons.injEq] at heq
      rcases heq with ⟨rfl, rfl⟩
      exact ⟨_, .field hname, _, _, _, rfl, htype, _, tail, .more hmore, hcloses⟩
  | afterKind kind =>
    rcases h with ⟨body, tail, heq, hbody, hcloses⟩
    cases hbody with
    | absent =>
      subst heq
      exact hcloses.step rfl
    | present hlist =>
      cases heq
      exact ⟨_, .openParameters, _, tail, by simp, hlist, hcloses⟩
  | parameter kind =>
    rcases h with ⟨body, tail, heq, hbody, hcloses⟩
    cases hbody with
    | one hparameter =>
      cases heq
      exact ⟨_, .parameter hparameter, [], tail, rfl, .inl rfl, hcloses⟩
    | more hparameter hlist =>
      cases heq
      exact ⟨_, .parameter hparameter, _, tail, rfl, .inr ⟨_, rfl, hlist⟩, hcloses⟩
  | afterParameter kind =>
    rcases h with ⟨body, tail, heq, hbody, hcloses⟩
    rcases hbody with rfl | ⟨list, rfl, hlist⟩
    · cases heq
      exact ⟨_, .closeParameters, hcloses⟩
    · cases heq
      exact ⟨_, .nextParameter, list, tail, rfl, hlist, hcloses⟩
  | afterType whole => exact Closes.step h rfl

-- A state that nothing more finishes is complete.
theorem Reads.complete? {state : State} {result : SqlType} (h : Reads state [] result) :
    complete? state = some result := by
  rcases state with ⟨opened, next⟩
  have hcloses : ∀ {type : SqlType}, Closes opened type [] result → opened = [] ∧ result = type := by
    intro type hcloses
    match opened, hcloses with
    | [], ⟨_, heq⟩ => exact ⟨rfl, heq⟩
    | .array :: _, ⟨_, heq, _⟩ => cases heq
    | .struct _ _ :: _, ⟨_, _, hrest, _⟩ => cases hrest
  cases next with
  | type =>
    rcases h with ⟨body, tail, type, heq, hbody, -⟩
    cases hbody <;> cases heq
  | arrayOpening => obtain ⟨body, tail, type, heq, -⟩ := h; cases heq
  | structOpening => obtain ⟨body, tail, type, heq, -⟩ := h; cases heq
  | fieldName done => obtain ⟨body, tail, fields, heq, -⟩ := h; simp at heq
  | afterKind kind =>
    rcases h with ⟨body, tail, heq, hbody, htail⟩
    cases hbody with
    | absent =>
      subst heq
      rcases hcloses htail with ⟨rfl, rfl⟩
      rfl
    | present => cases heq
  | parameter kind => obtain ⟨body, tail, heq, -⟩ := h; simp at heq
  | afterParameter kind => obtain ⟨body, tail, heq, -⟩ := h; simp at heq
  | afterType whole =>
    rcases hcloses h with ⟨rfl, rfl⟩
    rfl

theorem accept?_of_reads {limit : Nat} {state : State} {lexemes : List Lexeme} {result : SqlType}
    (h : Reads state lexemes result) (hdepth : result.depth ≤ limit) :
    accept? limit state lexemes = some result := by
  induction lexemes generalizing state with
  | nil => exact h.complete?
  | cons lexeme rest ih =>
    rcases h.step hdepth with ⟨next, hstep, hreads⟩
    rw [accept?, advance?_eq_some_iff.mpr hstep]
    exact ih hreads

-- From the start exactly the lists that derive a type within the limit are accepted.
theorem accept?_start_iff {limit : Nat} {lexemes : List Lexeme} {type : SqlType} :
    accept? limit .start lexemes = some type ↔ Derives lexemes type ∧ type.depth ≤ limit := by
  constructor
  · intro h
    refine ⟨?_, depth_le_of_accept? h (State.fits_start limit)⟩
    rcases reads_of_accept? h with ⟨body, rest, read, rfl, hbody, rfl, rfl⟩
    simpa using hbody
  · rintro ⟨hderives, hdepth⟩
    exact accept?_of_reads ⟨lexemes, [], type, by simp, hderives, rfl, rfl⟩ hdepth

end SchemaCatalog.Parser

namespace SchemaCatalog.SqlType

/-- An input reads as a type if and only if its lexemes derive the type by the grammar and the type
nests no deeper than the limit. -/
theorem parseWithin_eq_ok_iff (limit : Nat) (input : String) (type : SqlType) :
    parseWithin limit input = .ok type ↔
      Grammar.Derives (Token.lexemes input) type ∧ type.depth ≤ limit :=
  Parser.parseWithin_eq_ok_iff_accept?.trans Parser.accept?_start_iff

end SchemaCatalog.SqlType
