import SchemaCatalog.Proofs.SqlType.ErrorPlace

/-!
# Tokens that are spelled in another way

What the reader makes of tokens is a verdict: a type, or a fault with the token that it is about.  The
text of the input only serves to cite that token.  A respelling writes names and illegal texts in
another way and moves tokens, but a name goes on to stand for the same thing where a type is expected.
Respelled tokens get the respelled verdict, so nothing else of the tokens plays a part.
-/

namespace SchemaCatalog

namespace Parser

/-! ## Verdicts -/

/-- What is wrong with a list of tokens: a reason, and the token that it is about. -/
structure Fault where
  reason : ParseReason
  token : Token

/-- A token that does not fit the state. -/
def faultAt (limit : Nat) (state : State) (token : Token) : Fault :=
  ⟨refusalReason limit state token.lexeme, token⟩

/-- Follows the tokens from a state; the token `last` stands for their end. -/
def follow (limit : Nat) (state : State) (last : Token) : List Token → Except Fault SqlType
  | [] =>
    match complete? state with
    | some type => .ok type
    | none => .error (faultAt limit state last)
  | token :: rest =>
    match advance? limit state token.lexeme with
    | some next => follow limit next last rest
    | none => .error (faultAt limit state token)

/-- The type that tokens give, or what is wrong with them. -/
def verdict (limit : Nat) (tokens : List Token) (last : Token) : Except Fault SqlType :=
  match Brackets.balanced tokens with
  | .ok () => follow limit .start last tokens
  | .error mismatch => .error ⟨mismatch.reason, mismatch.token⟩

/-- The error that reports a fault of an input. -/
def Fault.cite (input : String) (fault : Fault) : ParseError :=
  if fault.reason.citesRest then .fromToken input fault.token fault.reason
  else .atToken input fault.token fault.reason

theorem Fault.reason_cite (input : String) (fault : Fault) :
    (fault.cite input).reason = fault.reason := by
  unfold Fault.cite
  split <;> rfl

theorem Fault.position_cite (input : String) (fault : Fault) :
    (fault.cite input).position = fault.token.position := by
  unfold Fault.cite
  split <;> rfl

theorem cite_faultAt (input : String) (limit : Nat) (state : State) (token : Token) :
    (faultAt limit state token).cite input = refusal input limit state token := by
  rw [refusal, Fault.cite, faultAt]
  by_cases htrailing : refusalReason limit state token.lexeme = .trailingInput
  · rw [if_pos htrailing, if_pos (citesRest_refusalReason.mpr htrailing)]
  · rw [if_neg htrailing, if_neg (mt citesRest_refusalReason.mp htrailing)]

theorem run_eq_follow (input : String) (limit : Nat) (state : State) (tokens : List Token) :
    run input limit state tokens =
      (follow limit state (Token.atEnd input) tokens).mapError (Fault.cite input) := by
  induction tokens generalizing state with
  | nil =>
    rw [run, follow]
    cases complete? state with
    | some type => rfl
    | none => exact congrArg Except.error (cite_faultAt input limit state _).symm
  | cons token rest ih =>
    rw [run, follow]
    cases advance? limit state token.lexeme with
    | some next => exact ih next
    | none => exact congrArg Except.error (cite_faultAt input limit state token).symm

-- Reading an input is the verdict on its tokens.
theorem parseWithin_eq_verdict (limit : Nat) (input : String) :
    SqlType.parseWithin limit input =
      (verdict limit (Token.list input) (Token.atEnd input)).mapError (Fault.cite input) := by
  rw [SqlType.parseWithin, verdict]
  cases hbalanced : Brackets.balanced (Token.list input) with
  | ok matched => exact run_eq_follow input limit .start (Token.list input)
  | error mismatch =>
    obtain ⟨-, -, hrest⟩ := Brackets.mem_of_balanced_error hbalanced
    exact congrArg Except.error (if_pos hrest).symm

theorem follow_error {limit : Nat} {state : State} {tokens : List Token} {last : Token}
    {fault : Fault}
    (h : follow limit state last tokens = .error fault) : fault.token ∈ tokens ++ [last] := by
  induction tokens generalizing state with
  | nil =>
    rw [follow] at h
    cases hcomplete : complete? state with
    | some type =>
      rw [hcomplete] at h
      cases h
    | none =>
      rw [hcomplete] at h
      cases h
      exact List.mem_singleton_self last
  | cons token rest ih =>
    rw [follow] at h
    cases hadvance : advance? limit state token.lexeme with
    | some next =>
      rw [hadvance] at h
      exact List.mem_cons_of_mem _ (ih h)
    | none =>
      rw [hadvance] at h
      cases h
      exact List.mem_cons_self

-- A fault is about one of the tokens, or about their end.
theorem verdict_error {limit : Nat} {tokens : List Token} {last : Token} {fault : Fault}
    (h : verdict limit tokens last = .error fault) : fault.token ∈ tokens ++ [last] := by
  rw [verdict] at h
  cases hbalanced : Brackets.balanced tokens with
  | ok matched =>
    rw [hbalanced] at h
    exact follow_error h
  | error mismatch =>
    rw [hbalanced] at h
    cases h
    obtain ⟨hmem, -, -⟩ := Brackets.mem_of_balanced_error hbalanced
    exact List.mem_append_left _ hmem

end Parser

/-! ## Respellings -/

/-- Another way to write the names and the illegal texts of tokens, and to count their positions. -/
structure Respelling where
  name : String → String
  illegal : String → String
  position : Nat → Nat
  expectation : ∀ text, Parser.expectationOfName? (name text) = Parser.expectationOfName? text

/-- A respelling that leaves the names as they are. -/
def Respelling.keepingNames (illegal : String → String) (position : Nat → Nat) : Respelling where
  name := id
  illegal := illegal
  position := position
  expectation _ := rfl

namespace SqlType

mutual

/-- A type with all its field names changed. -/
def mapNames (change : String → String) : SqlType → SqlType
  | simple kind => simple kind
  | array element => array (element.mapNames change)
  | struct fields => struct (mapFieldNames change fields)
termination_by structural type => type

/-- The same for the fields of a struct. -/
def mapFieldNames (change : String → String) : List StructField → List StructField
  | [] => []
  | ⟨name, type⟩ :: rest => ⟨change name, type.mapNames change⟩ :: mapFieldNames change rest
termination_by structural fields => fields

end

variable {change : String → String}

theorem mapFieldNames_append (fields more : List StructField) :
    mapFieldNames change (fields ++ more) =
      mapFieldNames change fields ++ mapFieldNames change more := by
  induction fields with
  | nil => rfl
  | cons field fields ih =>
    rcases field with ⟨name, type⟩
    rw [List.cons_append, mapFieldNames, mapFieldNames, ih, List.cons_append]

theorem mapFieldNames_eq_nil_iff {fields : List StructField} :
    mapFieldNames change fields = [] ↔ fields = [] := by
  cases fields with
  | nil => exact iff_of_true rfl rfl
  | cons field fields =>
    rcases field with ⟨name, type⟩
    exact iff_of_false (List.cons_ne_nil _ _) (List.cons_ne_nil _ _)

theorem mapNames_id (type : SqlType) : type.mapNames id = type := by
  induction type using induct with
  | simple kind => rfl
  | array element ih => rw [mapNames, ih]
  | struct fields ih =>
    rw [mapNames]
    congr 1
    induction fields with
    | nil => rfl
    | cons field fields ihfields =>
      rcases field with ⟨name, type⟩
      obtain ⟨hfield, hfields⟩ := List.forall_mem_cons.mp ih
      rw [mapFieldNames, hfield, ihfields hfields]
      rfl

end SqlType

namespace Lexeme

def respell (respelling : Respelling) : Lexeme → Lexeme
  | identifier name => identifier (respelling.name name)
  | quoted name => quoted (respelling.name name)
  | illegal text => illegal (respelling.illegal text)
  | lexeme => lexeme

end Lexeme

def Token.respell (respelling : Respelling) (token : Token) : Token :=
  ⟨token.lexeme.respell respelling, respelling.position token.position⟩

def ParseReason.respell (respelling : Respelling) : ParseReason → ParseReason
  | unmatched bracket => unmatched (bracket.respell respelling)
  | mismatched opener closer => mismatched (opener.respell respelling) (closer.respell respelling)
  | expected wanted found => expected wanted (found.respell respelling)
  | reason => reason

theorem ParseReason.citesRest_respell (respelling : Respelling) (reason : ParseReason) :
    (reason.respell respelling).citesRest = reason.citesRest := by
  cases reason <;> rfl

section

variable (respelling : Respelling)

namespace Brackets

def Mismatch.respell (mismatch : Mismatch) : Mismatch :=
  ⟨mismatch.reason.respell respelling, mismatch.token.respell respelling⟩

theorem step_respell (opened : List Token) (token : Token) :
    step (opened.map (Token.respell respelling)) (token.respell respelling) =
      ((step opened token).map (List.map (Token.respell respelling))).mapError
        (Mismatch.respell respelling) := by
  rcases token with ⟨lexeme, position⟩
  cases lexeme with
  | greater =>
    cases opened with
    | nil => rfl
    | cons opener outer =>
      rcases opener with ⟨opener, start⟩
      cases opener <;> rfl
  | rightParen =>
    cases opened with
    | nil => rfl
    | cons opener outer =>
      rcases opener with ⟨opener, start⟩
      cases opener <;> rfl
  | _ => rfl

theorem check_respell (opened tokens : List Token) :
    check (opened.map (Token.respell respelling)) (tokens.map (Token.respell respelling)) =
      (check opened tokens).mapError (Mismatch.respell respelling) := by
  induction tokens generalizing opened with
  | nil => cases opened <;> rfl
  | cons token rest ih =>
    rw [List.map_cons, check, check, step_respell]
    cases step opened token with
    | ok next => exact ih next
    | error mismatch => rfl

end Brackets

namespace Parser

def Frame.mapNames (change : String → String) : Frame → Frame
  | array => array
  | struct fields name => struct (SqlType.mapFieldNames change fields) (change name)

def Expectation.mapNames (change : String → String) : Expectation → Expectation
  | fieldName fields => fieldName (SqlType.mapFieldNames change fields)
  | afterType whole => afterType (whole.mapNames change)
  | expectation => expectation

def State.mapNames (change : String → String) (state : State) : State :=
  ⟨state.opened.map (Frame.mapNames change), state.next.mapNames change⟩

def Fault.respell (fault : Fault) : Fault :=
  ⟨fault.reason.respell respelling, fault.token.respell respelling⟩

-- What a name leads to holds no names yet.
theorem mapNames_expectationOfName? {change : String → String} {name : String}
    {next : Expectation} (h : expectationOfName? name = some next) : next.mapNames change = next := by
  unfold expectationOfName? at h
  split at h
  · cases h; rfl
  split at h
  · cases h; rfl
  · obtain ⟨kind, -, rfl⟩ := Option.map_eq_some_iff.mp h
    rfl

theorem closeType?_respell (opened : List Frame) (type : SqlType) (lexeme : Lexeme) :
    closeType? (opened.map (Frame.mapNames respelling.name)) (type.mapNames respelling.name)
        (lexeme.respell respelling) =
      (closeType? opened type lexeme).map (State.mapNames respelling.name) := by
  cases opened with
  | nil => cases lexeme <;> rfl
  | cons frame outer =>
    cases frame with
    | array => cases lexeme <;> rfl
    | struct fields name =>
      have hfields : SqlType.mapFieldNames respelling.name (fields ++ [⟨name, type⟩]) =
          SqlType.mapFieldNames respelling.name fields ++
            [⟨respelling.name name, type.mapNames respelling.name⟩] :=
        SqlType.mapFieldNames_append fields [⟨name, type⟩]
      cases lexeme with
      | greater =>
        show some _ = some _
        rw [State.mapNames, Expectation.mapNames, SqlType.mapNames, hfields]
      | comma =>
        show some _ = some _
        rw [State.mapNames, Expectation.mapNames, hfields]
      | _ => rfl

theorem advance?_type (limit : Nat) (opened : List Frame) (name : String) :
    advance? limit ⟨opened, .type⟩ (.identifier name) =
      if limit ≤ opened.length then none else (expectationOfName? name).map (⟨opened, ·⟩) := rfl

theorem advance?_respell (limit : Nat) (state : State) (lexeme : Lexeme) :
    advance? limit (state.mapNames respelling.name) (lexeme.respell respelling) =
      (advance? limit state lexeme).map (State.mapNames respelling.name) := by
  rcases state with ⟨opened, next⟩
  cases next with
  | type =>
    cases lexeme with
    | identifier name =>
      show advance? limit ⟨opened.map (Frame.mapNames respelling.name), .type⟩
        (.identifier (respelling.name name)) = _
      rw [advance?_type, advance?_type, List.length_map, respelling.expectation]
      split
      · rfl
      · cases hname : expectationOfName? name with
        | none => rfl
        | some next =>
          show some _ = some (State.mapNames _ _)
          rw [State.mapNames, mapNames_expectationOfName? hname]
    | _ => rfl
  | arrayOpening => cases lexeme <;> rfl
  | structOpening => cases lexeme <;> rfl
  | fieldName fields => cases lexeme <;> rfl
  | afterKind kind =>
    cases lexeme with
    | leftParen => rfl
    | _ => exact closeType?_respell respelling opened (.simple kind) _
  | parameter kind => cases lexeme <;> rfl
  | afterParameter kind => cases lexeme <;> rfl
  | afterType type => exact closeType?_respell respelling opened type lexeme

theorem typeRefusal_respell (limit depth : Nat) (lexeme : Lexeme) :
    typeRefusal limit depth (lexeme.respell respelling) =
      (typeRefusal limit depth lexeme).respell respelling := by
  unfold typeRefusal
  split
  · rfl
  · cases lexeme <;> rfl

theorem closeRefusal_respell (change : String → String) (opened : List Frame) (lexeme : Lexeme) :
    closeRefusal (opened.map (Frame.mapNames change)) (lexeme.respell respelling) =
      (closeRefusal opened lexeme).respell respelling := by
  cases opened with
  | nil => rfl
  | cons frame outer => cases frame <;> rfl

theorem respell_eq_greater_iff {lexeme : Lexeme} :
    lexeme.respell respelling = .greater ↔ lexeme = .greater := by
  cases lexeme <;> simp [Lexeme.respell]

theorem refusalReason_respell (limit : Nat) (state : State) (lexeme : Lexeme) :
    refusalReason limit (state.mapNames respelling.name) (lexeme.respell respelling) =
      (refusalReason limit state lexeme).respell respelling := by
  rcases state with ⟨opened, next⟩
  cases next with
  | type =>
    show typeRefusal limit (opened.map (Frame.mapNames respelling.name)).length _ = _
    rw [List.length_map]
    exact typeRefusal_respell respelling limit opened.length lexeme
  | arrayOpening => rfl
  | structOpening => rfl
  | fieldName fields =>
    simp only [refusalReason, State.mapNames, Expectation.mapNames,
      SqlType.mapFieldNames_eq_nil_iff, respell_eq_greater_iff]
    split <;> rfl
  | afterKind kind => exact closeRefusal_respell respelling _ opened lexeme
  | parameter kind => rfl
  | afterParameter kind => rfl
  | afterType type => exact closeRefusal_respell respelling _ opened lexeme

theorem faultAt_respell (limit : Nat) (state : State) (token : Token) :
    faultAt limit (state.mapNames respelling.name) (token.respell respelling) =
      (faultAt limit state token).respell respelling :=
  congrArg (Fault.mk · (token.respell respelling))
    (refusalReason_respell respelling limit state token.lexeme)

theorem complete?_mapNames (change : String → String) (state : State) :
    complete? (state.mapNames change) = (complete? state).map (SqlType.mapNames change) := by
  rcases state with ⟨opened, next⟩
  cases opened with
  | nil => cases next <;> rfl
  | cons frame outer => rfl

theorem follow_respell (limit : Nat) (state : State) (last : Token) (tokens : List Token) :
    follow limit (state.mapNames respelling.name) (last.respell respelling)
        (tokens.map (Token.respell respelling)) =
      ((follow limit state last tokens).map (SqlType.mapNames respelling.name)).mapError
        (Fault.respell respelling) := by
  induction tokens generalizing state with
  | nil =>
    rw [List.map_nil, follow, follow, complete?_mapNames, faultAt_respell]
    cases complete? state <;> rfl
  | cons token rest ih =>
    have hadvance : advance? limit (state.mapNames respelling.name)
        (token.respell respelling).lexeme =
          (advance? limit state token.lexeme).map (State.mapNames respelling.name) :=
      advance?_respell respelling limit state token.lexeme
    rw [List.map_cons, follow, follow, hadvance, faultAt_respell]
    cases advance? limit state token.lexeme with
    | some next => exact ih next
    | none => rfl

-- Respelled tokens get the respelled verdict.
theorem verdict_respell (limit : Nat) (tokens : List Token) (last : Token) :
    verdict limit (tokens.map (Token.respell respelling)) (last.respell respelling) =
      ((verdict limit tokens last).map (SqlType.mapNames respelling.name)).mapError
        (Fault.respell respelling) := by
  have hbalanced : Brackets.balanced (tokens.map (Token.respell respelling)) =
      (Brackets.balanced tokens).mapError (Brackets.Mismatch.respell respelling) :=
    Brackets.check_respell respelling [] tokens
  rw [verdict, verdict, hbalanced]
  cases Brackets.balanced tokens with
  | ok matched => exact follow_respell respelling limit .start last tokens
  | error mismatch => rfl

end Parser

-- Two inputs whose tokens are the same when respelled are read alike.
theorem SqlType.parseWithin_alike (limit : Nat) {input other : String}
    (htokens : (Token.list other).map (Token.respell respelling) =
      (Token.list input).map (Token.respell respelling))
    (hlast : (Token.atEnd other).respell respelling = (Token.atEnd input).respell respelling) :
    (∃ type type', parseWithin limit input = .ok type ∧ parseWithin limit other = .ok type' ∧
        type'.mapNames respelling.name = type.mapNames respelling.name) ∨
      ∃ error error', parseWithin limit input = .error error ∧
        parseWithin limit other = .error error' ∧
        error'.reason.respell respelling = error.reason.respell respelling ∧
        respelling.position error'.position = respelling.position error.position := by
  have hverdict := Parser.verdict_respell respelling limit (Token.list other) (Token.atEnd other)
  rw [htokens, hlast, Parser.verdict_respell] at hverdict
  rw [Parser.parseWithin_eq_verdict, Parser.parseWithin_eq_verdict]
  generalize Parser.verdict limit (Token.list input) (Token.atEnd input) = first at hverdict ⊢
  generalize Parser.verdict limit (Token.list other) (Token.atEnd other) = second at hverdict ⊢
  rcases first with fault | type <;> rcases second with fault' | type'
  · injection hverdict with hfault
    injection hfault with hreason htoken
    injection htoken with _ hposition
    refine .inr ⟨_, _, rfl, rfl, ?_, ?_⟩
    · rw [Parser.Fault.reason_cite, Parser.Fault.reason_cite]
      exact hreason.symm
    · rw [Parser.Fault.position_cite, Parser.Fault.position_cite]
      exact hposition.symm
  · cases hverdict
  · cases hverdict
  · injection hverdict with htype
    exact .inl ⟨type, type', rfl, rfl, htype.symm⟩

end

end SchemaCatalog
