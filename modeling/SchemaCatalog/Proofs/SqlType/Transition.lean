import SchemaCatalog.SqlType.Parser
import SchemaCatalog.Proofs.SqlType.Nesting

/-!
# The moves of the reader

`Step` lists what one lexeme can do to the state of the reader, guards included, and `advance?` makes
exactly these moves.  What holds along every run is then shown move by move: the open brackets of a
state are those that the bracket check has seen, and no type in a state is deeper than the limit
allows.
-/

namespace SchemaCatalog.Parser

/-- The type that is complete if the next lexeme belongs to what surrounds it. -/
def Expectation.complete? : Expectation → Option SqlType
  | .afterKind kind => some (.simple kind)
  | .afterType whole => some whole
  | _ => none

theorem complete?_eq_some_iff {state : State} {type : SqlType} :
    complete? state = some type ↔ state.opened = [] ∧ state.next.complete? = some type := by
  rcases state with ⟨opened, next⟩
  cases opened <;> cases next <;> simp [complete?, Expectation.complete?]

/-- The moves of the reader. -/
inductive Step (limit : Nat) : State → Lexeme → State → Prop where
  | array {opened : List Frame} {name : String} (hroom : opened.length < limit)
      (hname : Text.equalIgnoringAsciiCase name "ARRAY" = true) :
      Step limit ⟨opened, .type⟩ (.identifier name) ⟨opened, .arrayOpening⟩
  | struct {opened : List Frame} {name : String} (hroom : opened.length < limit)
      (harray : Text.equalIgnoringAsciiCase name "ARRAY" = false)
      (hname : Text.equalIgnoringAsciiCase name "STRUCT" = true) :
      Step limit ⟨opened, .type⟩ (.identifier name) ⟨opened, .structOpening⟩
  | kind {opened : List Frame} {name : String} {kind : TypeKind} (hroom : opened.length < limit)
      (harray : Text.equalIgnoringAsciiCase name "ARRAY" = false)
      (hstruct : Text.equalIgnoringAsciiCase name "STRUCT" = false)
      (hkind : TypeKind.ofName? name = some kind) :
      Step limit ⟨opened, .type⟩ (.identifier name) ⟨opened, .afterKind kind⟩
  | openArray {opened : List Frame} :
      Step limit ⟨opened, .arrayOpening⟩ .less ⟨.array :: opened, .type⟩
  | openStruct {opened : List Frame} :
      Step limit ⟨opened, .structOpening⟩ .less ⟨opened, .fieldName []⟩
  | field {opened : List Frame} {fields : List StructField} {lexeme : Lexeme} {name : String}
      (hname : lexeme.fieldName? = some name) :
      Step limit ⟨opened, .fieldName fields⟩ lexeme ⟨.struct fields name :: opened, .type⟩
  | openParameters {opened : List Frame} {kind : TypeKind} :
      Step limit ⟨opened, .afterKind kind⟩ .leftParen ⟨opened, .parameter kind⟩
  | parameter {opened : List Frame} {kind : TypeKind} {lexeme : Lexeme}
      (hparameter : lexeme.isParameter = true) :
      Step limit ⟨opened, .parameter kind⟩ lexeme ⟨opened, .afterParameter kind⟩
  | nextParameter {opened : List Frame} {kind : TypeKind} :
      Step limit ⟨opened, .afterParameter kind⟩ .comma ⟨opened, .parameter kind⟩
  | closeParameters {opened : List Frame} {kind : TypeKind} :
      Step limit ⟨opened, .afterParameter kind⟩ .rightParen ⟨opened, .afterType (.simple kind)⟩
  | closeArray {outer : List Frame} {next : Expectation} {element : SqlType}
      (hcomplete : next.complete? = some element) :
      Step limit ⟨.array :: outer, next⟩ .greater ⟨outer, .afterType (.array element)⟩
  | closeStruct {outer : List Frame} {next : Expectation} {fields : List StructField}
      {name : String} {type : SqlType} (hcomplete : next.complete? = some type) :
      Step limit ⟨.struct fields name :: outer, next⟩ .greater
        ⟨outer, .afterType (.struct (fields ++ [⟨name, type⟩]))⟩
  | nextField {outer : List Frame} {next : Expectation} {fields : List StructField}
      {name : String} {type : SqlType} (hcomplete : next.complete? = some type) :
      Step limit ⟨.struct fields name :: outer, next⟩ .comma
        ⟨outer, .fieldName (fields ++ [⟨name, type⟩])⟩

theorem closeType?_step {limit : Nat} {opened : List Frame} {next : Expectation} {type : SqlType}
    {lexeme : Lexeme} {state : State} (hcomplete : next.complete? = some type)
    (h : closeType? opened type lexeme = some state) :
    Step limit ⟨opened, next⟩ lexeme state := by
  unfold closeType? at h
  split at h
  · cases h; exact .closeArray hcomplete
  · cases h; exact .closeStruct hcomplete
  · cases h; exact .nextField hcomplete
  · cases h

theorem step_of_advance? {limit : Nat} {state next : State} {lexeme : Lexeme}
    (h : advance? limit state lexeme = some next) : Step limit state lexeme next := by
  rcases state with ⟨opened, expectation⟩
  unfold advance? at h
  split at h
  · rename_i name hnext
    cases hnext
    split at h
    · cases h
    · rename_i hroom
      have hroom : opened.length < limit := by simpa using hroom
      unfold expectationOfName? at h
      split at h
      · cases h; exact .array hroom ‹_›
      · rename_i harray
        have harray : Text.equalIgnoringAsciiCase name "ARRAY" = false := by simpa using harray
        split at h
        · cases h; exact .struct hroom harray ‹_›
        · rename_i hstruct
          rcases Option.map_eq_some_iff.mp h with ⟨_, hnamed, rfl⟩
          rcases Option.map_eq_some_iff.mp hnamed with ⟨kind, hkind, rfl⟩
          exact .kind hroom harray (by simpa using hstruct) hkind
  · rename_i hnext; cases hnext; cases h; exact .openArray
  · rename_i hnext; cases hnext; cases h; exact .openStruct
  · rename_i hnext
    cases hnext
    rcases Option.map_eq_some_iff.mp h with ⟨name, hname, rfl⟩
    exact .field hname
  · rename_i hnext; cases hnext; cases h; exact .openParameters
  · rename_i hnext _; cases hnext; exact closeType?_step rfl h
  · rename_i hnext
    cases hnext
    split at h
    · cases h; exact .parameter ‹_›
    · cases h
  · rename_i hnext; cases hnext; cases h; exact .nextParameter
  · rename_i hnext; cases hnext; cases h; exact .closeParameters
  · rename_i hnext; cases hnext; exact closeType?_step rfl h
  · cases h

theorem advance?_of_step {limit : Nat} {state next : State} {lexeme : Lexeme}
    (h : Step limit state lexeme next) : advance? limit state lexeme = some next := by
  cases h with
  | array hroom hname =>
    simp [advance?, expectationOfName?, Nat.not_le.mpr hroom, hname]
  | struct hroom harray hname =>
    simp [advance?, expectationOfName?, Nat.not_le.mpr hroom, harray, hname]
  | kind hroom harray hstruct hkind =>
    simp [advance?, expectationOfName?, Nat.not_le.mpr hroom, harray, hstruct, hkind]
  | openArray => rfl
  | openStruct => rfl
  | field hname => simp [advance?, hname]
  | openParameters => rfl
  | parameter hparameter => simp [advance?, hparameter]
  | nextParameter => rfl
  | closeParameters => rfl
  | @closeArray outer expectation element hcomplete =>
    cases expectation <;> cases hcomplete <;> rfl
  | @closeStruct outer expectation fields name type hcomplete =>
    cases expectation <;> cases hcomplete <;> rfl
  | @nextField outer expectation fields name type hcomplete =>
    cases expectation <;> cases hcomplete <;> rfl

-- `advance?` makes exactly the listed moves.
theorem advance?_eq_some_iff {limit : Nat} {state next : State} {lexeme : Lexeme} :
    advance? limit state lexeme = some next ↔ Step limit state lexeme next :=
  ⟨step_of_advance?, advance?_of_step⟩

/-! ## Runs without errors -/

/-- The type that a run reads, if it reads one. -/
def accept? (limit : Nat) (state : State) : List Lexeme → Option SqlType
  | [] => complete? state
  | lexeme :: rest =>
    match advance? limit state lexeme with
    | some next => accept? limit next rest
    | none => none

theorem run_eq_ok_iff {input : String} {limit : Nat} {state : State} {tokens : List Token}
    {type : SqlType} :
    run input limit state tokens = .ok type ↔
      accept? limit state (tokens.map Token.lexeme) = some type := by
  induction tokens generalizing state with
  | nil =>
    cases hcomplete : complete? state <;> simp [run, accept?, hcomplete]
  | cons token rest ih =>
    rw [run, List.map_cons, accept?]
    cases hadvance : advance? limit state token.lexeme with
    | none => simp
    | some next => exact ih

/-! ## The brackets of a state -/

/-- The brackets that are open in a state, innermost first. -/
def State.brackets (state : State) : List Lexeme :=
  let inner :=
    match state.next with
    | .fieldName _ => [Lexeme.less]
    | .parameter _ => [Lexeme.leftParen]
    | .afterParameter _ => [Lexeme.leftParen]
    | _ => []
  inner ++ state.opened.map fun _ => Lexeme.less

-- A complete type has no bracket of its own left open.
theorem State.brackets_of_complete? {opened : List Frame} {next : Expectation} {type : SqlType}
    (hcomplete : next.complete? = some type) :
    State.brackets ⟨opened, next⟩ = opened.map fun _ => Lexeme.less := by
  cases next <;> cases hcomplete <;> rfl

-- A closer takes away the opener of its kind if that is innermost.
theorem step_closer {opened : List Token} {opener : Lexeme} {outerBrackets : List Lexeme}
    {closer : Token} (hpairs : Brackets.pairs opener closer.lexeme = true)
    (hopened : opened.map Token.lexeme = opener :: outerBrackets) :
    ∃ after, Brackets.step opened closer = .ok after ∧
      after.map Token.lexeme = outerBrackets := by
  rcases List.map_eq_cons_iff.mp hopened with ⟨innermost, outer, rfl, rfl, houter⟩
  exact ⟨outer, Brackets.step_of_pairs hpairs, houter⟩

-- The bracket check follows every move.
theorem Step.brackets {limit : Nat} {state next : State} {token : Token} {opened : List Token}
    (h : Step limit state token.lexeme next)
    (hopened : opened.map Token.lexeme = state.brackets) :
    ∃ after, Brackets.step opened token = .ok after ∧
      after.map Token.lexeme = next.brackets := by
  rcases token with ⟨lexeme, position⟩
  dsimp only at h
  cases h with
  | array => exact ⟨opened, rfl, hopened⟩
  | struct => exact ⟨opened, rfl, hopened⟩
  | kind => exact ⟨opened, rfl, hopened⟩
  | openArray => exact ⟨_, rfl, congrArg (Lexeme.less :: ·) hopened⟩
  | openStruct => exact ⟨_, rfl, congrArg (Lexeme.less :: ·) hopened⟩
  | field hname =>
    -- the bracket of the struct is counted before the name of the field and with its frame after it
    cases lexeme <;> cases hname <;> exact ⟨opened, rfl, hopened⟩
  | openParameters => exact ⟨_, rfl, congrArg (Lexeme.leftParen :: ·) hopened⟩
  | parameter hparameter =>
    cases lexeme <;> cases hparameter <;> exact ⟨opened, rfl, hopened⟩
  | nextParameter => exact ⟨opened, rfl, hopened⟩
  | closeParameters => exact step_closer rfl hopened
  | closeArray hcomplete =>
    rw [State.brackets_of_complete? hcomplete] at hopened
    exact step_closer rfl hopened
  | closeStruct hcomplete =>
    rw [State.brackets_of_complete? hcomplete] at hopened
    exact step_closer rfl hopened
  | nextField hcomplete =>
    -- a comma leaves the struct open, and the check passes over commas
    rw [State.brackets_of_complete? hcomplete] at hopened
    exact ⟨opened, rfl, hopened⟩

-- The bracket check rejects nothing that the reader accepts.
theorem check_of_accept? {limit : Nat} {state : State} {tokens opened : List Token}
    {type : SqlType} (h : accept? limit state (tokens.map Token.lexeme) = some type)
    (hopened : opened.map Token.lexeme = state.brackets) :
    Brackets.check opened tokens = .ok () := by
  induction tokens generalizing state opened with
  | nil =>
    -- no frames and a complete type: nothing is left open for the check to complain of
    rcases complete?_eq_some_iff.mp h with ⟨hframes, hcomplete⟩
    rcases state with ⟨frames, next⟩
    dsimp only at hframes hcomplete
    rw [State.brackets_of_complete? hcomplete, hframes] at hopened
    rw [List.map_eq_nil_iff.mp hopened]
    rfl
  | cons token rest ih =>
    rw [List.map_cons, accept?] at h
    split at h
    · rename_i next hadvance
      rcases (advance?_eq_some_iff.mp hadvance).brackets hopened with ⟨after, hstep, hafter⟩
      rw [Brackets.check_cons_of_step hstep]
      exact ih h hafter
    · cases h

-- Reading succeeds if and only if the run over all lexemes does.
theorem parseWithin_eq_ok_iff_accept? {limit : Nat} {input : String} {type : SqlType} :
    SqlType.parseWithin limit input = .ok type ↔
      accept? limit .start ((Token.list input).map Token.lexeme) = some type := by
  unfold SqlType.parseWithin
  constructor
  · intro h
    split at h
    · exact run_eq_ok_iff.mp h
    · cases h
  · intro h
    have hbalanced : Brackets.balanced (Token.list input) = .ok () := check_of_accept? h rfl
    rw [hbalanced]
    exact run_eq_ok_iff.mpr h

/-! ## The depth of a state -/

/-- The open types, and the fields that they hold already, keep to the limit. -/
def framesFit (limit : Nat) : List Frame → Prop
  | [] => True
  | .array :: outer => outer.length < limit ∧ framesFit limit outer
  | .struct fields _ :: outer =>
    outer.length + 1 + SqlType.fieldsDepth fields ≤ limit ∧ framesFit limit outer

/-- What is read inside `depth` open types keeps to the limit. -/
def Expectation.Fits (limit depth : Nat) : Expectation → Prop
  | .type => True
  | .fieldName fields => depth + 1 + SqlType.fieldsDepth fields ≤ limit
  | .afterType whole => depth + whole.depth ≤ limit
  | _ => depth < limit

/-- Nothing that a state has read is too deep for where it stands. -/
structure State.Fits (limit : Nat) (state : State) : Prop where
  frames : framesFit limit state.opened
  next : state.next.Fits limit state.opened.length

theorem Expectation.Fits.complete? {limit depth : Nat} {next : Expectation} {type : SqlType}
    (hfits : next.Fits limit depth) (hcomplete : next.complete? = some type) :
    depth + type.depth ≤ limit := by
  cases next <;> cases hcomplete <;> exact hfits

theorem Step.fits {limit : Nat} {state next : State} {lexeme : Lexeme}
    (h : Step limit state lexeme next) (hfits : state.Fits limit) : next.Fits limit := by
  rcases hfits with ⟨hframes, hnext⟩
  cases h with
  | array hroom => exact ⟨hframes, hroom⟩
  | struct hroom => exact ⟨hframes, hroom⟩
  | kind hroom => exact ⟨hframes, hroom⟩
  | openArray => exact ⟨⟨hnext, hframes⟩, trivial⟩
  | openStruct => exact ⟨hframes, hnext⟩
  | field => exact ⟨⟨hnext, hframes⟩, trivial⟩
  | openParameters => exact ⟨hframes, hnext⟩
  | parameter => exact ⟨hframes, hnext⟩
  | nextParameter => exact ⟨hframes, hnext⟩
  | closeParameters => exact ⟨hframes, hnext⟩
  | closeArray hcomplete =>
    have hdepth := hnext.complete? hcomplete
    refine ⟨hframes.2, ?_⟩
    simp only [Expectation.Fits, SqlType.depth, List.length_cons] at hdepth ⊢
    omega
  | closeStruct hcomplete =>
    have hdepth := hnext.complete? hcomplete
    have hfields := hframes.1
    refine ⟨hframes.2, ?_⟩
    simp only [Expectation.Fits, SqlType.depth, SqlType.fieldsDepth_append, SqlType.fieldsDepth,
      List.length_cons] at hdepth ⊢
    omega
  | nextField hcomplete =>
    have hdepth := hnext.complete? hcomplete
    have hfields := hframes.1
    refine ⟨hframes.2, ?_⟩
    simp only [Expectation.Fits, SqlType.fieldsDepth_append, SqlType.fieldsDepth,
      List.length_cons] at hdepth ⊢
    omega

-- What is read keeps to the limit.
theorem depth_le_of_accept? {limit : Nat} {state : State} {lexemes : List Lexeme}
    {type : SqlType} (h : accept? limit state lexemes = some type) (hfits : state.Fits limit) :
    type.depth ≤ limit := by
  induction lexemes generalizing state with
  | nil =>
    rcases complete?_eq_some_iff.mp h with ⟨hframes, hcomplete⟩
    have hdepth := hfits.next.complete? hcomplete
    omega
  | cons lexeme rest ih =>
    rw [accept?] at h
    split at h
    · exact ih h ((advance?_eq_some_iff.mp ‹_›).fits hfits)
    · cases h

theorem State.fits_start (limit : Nat) : State.start.Fits limit :=
  ⟨trivial, trivial⟩

end SchemaCatalog.Parser
