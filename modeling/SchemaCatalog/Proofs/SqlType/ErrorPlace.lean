import SchemaCatalog.Proofs.SqlType.Layout
import SchemaCatalog.Proofs.SqlType.Transition

/-!
# Where errors point

An error of a type expression is about one token of the input or about its end.  The position is where
that token starts, and the reason tells what token it is.  What is cited is the token itself, or the
input from there on if the reason is about what follows; at the end of the input it is all of it.
-/

namespace SchemaCatalog

namespace ParseReason

/-- What a reason says about the token at fault. -/
def Blames : ParseReason → Lexeme → Prop
  | unmatched bracket, lexeme => lexeme = bracket
  | mismatched opener _, lexeme => lexeme = opener
  | tooDeep _, _ => True
  | illegalCharacter, lexeme => ∃ text, lexeme = .illegal text
  | unexpectedEnd, lexeme => lexeme = .endOfInput
  | unknownType, lexeme => ∃ name, lexeme = .identifier name ∧ TypeKind.ofName? name = none
  | emptyStruct, lexeme => lexeme = .greater
  | malformedParameters, lexeme => lexeme.isParameter = false
  | trailingInput, lexeme => lexeme ≠ .endOfInput
  | expected _ found, lexeme => lexeme = found

/-- A reason that is about the input from the token on, not about the token alone. -/
def citesRest : ParseReason → Bool
  | unmatched _ => true
  | mismatched _ _ => true
  | trailingInput => true
  | _ => false

end ParseReason

namespace Brackets

-- A bracket of the input is to blame.
theorem mem_of_balanced_error {tokens : List Token} {mismatch : Mismatch}
    (h : balanced tokens = .error mismatch) :
    mismatch.token ∈ tokens ∧ mismatch.reason.Blames mismatch.token.lexeme ∧
      mismatch.reason.citesRest = true := by
  rcases balanced_error h with ⟨opener, outer, hleft, rfl⟩ |
    ⟨front, closer, back, left, rfl, hleft, -, ⟨rfl, rfl⟩ | ⟨opener, outer, rfl, -, rfl⟩⟩
  · exact ⟨hleft.mem_of_mem_among List.mem_cons_self, rfl, rfl⟩
  · exact ⟨List.mem_append_right _ List.mem_cons_self, rfl, rfl⟩
  · have hopener := hleft.mem_of_mem_among List.mem_cons_self
    exact ⟨List.mem_append_left _ hopener, rfl, rfl⟩

end Brackets

namespace Parser

variable {limit : Nat} {state : State} {lexeme : Lexeme}

theorem blames_typeRefusal {depth : Nat}
    (hname : limit ≤ depth ∨ ∀ name, lexeme = .identifier name → TypeKind.ofName? name = none) :
    (typeRefusal limit depth lexeme).Blames lexeme := by
  unfold typeRefusal
  split
  · trivial
  · rename_i hroom
    split
    · rename_i name
      exact ⟨name, rfl, hname.resolve_left hroom name rfl⟩
    · exact ⟨_, rfl⟩
    · rfl
    · rfl

theorem blames_closeRefusal {opened : List Frame} (hend : opened = [] → lexeme ≠ .endOfInput) :
    (closeRefusal opened lexeme).Blames lexeme := by
  cases opened with
  | nil => exact hend rfl
  | cons frame outer => cases frame <;> rfl

-- The reason fits a token that the state does not.
theorem blames_refusalReason (hadvance : advance? limit state lexeme = none)
    (hend : lexeme = .endOfInput → complete? state = none) :
    (refusalReason limit state lexeme).Blames lexeme := by
  rcases state with ⟨opened, next⟩
  cases next with
  | type =>
    refine blames_typeRefusal (Decidable.or_iff_not_imp_left.mpr ?_)
    rintro hroom name rfl
    simp only [advance?, if_neg hroom, Option.map_eq_none_iff] at hadvance
    unfold expectationOfName? at hadvance
    split at hadvance
    · cases hadvance
    split at hadvance
    · cases hadvance
    · exact Option.map_eq_none_iff.mp hadvance
  | arrayOpening => rfl
  | structOpening => rfl
  | fieldName fields =>
    rw [refusalReason]
    dsimp only
    split
    · rename_i hempty
      exact hempty.2
    · rfl
  | afterKind kind =>
    refine blames_closeRefusal ?_
    rintro rfl rfl
    cases hend rfl
  | parameter kind => simpa [advance?, refusalReason, ParseReason.Blames] using hadvance
  | afterParameter kind => rfl
  | afterType type =>
    refine blames_closeRefusal ?_
    rintro rfl rfl
    cases hend rfl

-- Of the reasons that the reader gives, one is about what follows.
theorem citesRest_typeRefusal {depth : Nat} : (typeRefusal limit depth lexeme).citesRest = true ↔
    typeRefusal limit depth lexeme = .trailingInput := by
  unfold typeRefusal
  split
  · simp [ParseReason.citesRest]
  · split <;> simp [ParseReason.citesRest]

theorem citesRest_closeRefusal {opened : List Frame} :
    (closeRefusal opened lexeme).citesRest = true ↔
      closeRefusal opened lexeme = .trailingInput := by
  cases opened with
  | nil => exact ⟨fun _ => rfl, fun _ => rfl⟩
  | cons frame outer => cases frame <;> simp [closeRefusal, ParseReason.citesRest]

theorem citesRest_refusalReason : (refusalReason limit state lexeme).citesRest = true ↔
    refusalReason limit state lexeme = .trailingInput := by
  rcases state with ⟨opened, next⟩
  cases next with
  | type => exact citesRest_typeRefusal
  | arrayOpening => simp [refusalReason, ParseReason.citesRest]
  | structOpening => simp [refusalReason, ParseReason.citesRest]
  | fieldName fields =>
    rw [refusalReason]
    dsimp only
    split <;> simp [ParseReason.citesRest]
  | afterKind kind => exact citesRest_closeRefusal
  | parameter kind => simp [refusalReason, ParseReason.citesRest]
  | afterParameter kind => simp [refusalReason, ParseReason.citesRest]
  | afterType type => exact citesRest_closeRefusal

theorem reason_refusal {input : String} {token : Token} :
    (refusal input limit state token).reason = refusalReason limit state token.lexeme := by
  unfold refusal
  dsimp only
  split <;> rfl

theorem advance?_endOfInput : advance? limit state .endOfInput = none := by
  rcases state with ⟨opened, next⟩
  cases next <;> simp [advance?, closeType?, Lexeme.fieldName?, Lexeme.isParameter]

-- A run fails at a token, or at the end of the input.
theorem run_error {input : String} {tokens : List Token} {error : ParseError}
    (h : run input limit state tokens = .error error) :
    ∃ reached token, error = refusal input limit reached token ∧
      advance? limit reached token.lexeme = none ∧
      (token ∈ tokens ∨ token = Token.atEnd input ∧ complete? reached = none) := by
  induction tokens generalizing state with
  | nil =>
    rw [run] at h
    cases hcomplete : complete? state with
    | some type =>
      rw [hcomplete] at h
      cases h
    | none =>
      rw [hcomplete] at h
      cases h
      exact ⟨state, Token.atEnd input, rfl, advance?_endOfInput, .inr ⟨rfl, hcomplete⟩⟩
  | cons token rest ih =>
    rw [run] at h
    cases hadvance : advance? limit state token.lexeme with
    | some next =>
      rw [hadvance] at h
      obtain ⟨reached, fault, herror, hstuck, hmem | hend⟩ := ih h
      · exact ⟨reached, fault, herror, hstuck, .inl (List.mem_cons_of_mem _ hmem)⟩
      · exact ⟨reached, fault, herror, hstuck, .inr hend⟩
    | none =>
      rw [hadvance] at h
      cases h
      exact ⟨state, token, rfl, hadvance, .inl List.mem_cons_self⟩

end Parser

/-- An error is about this token of the input: it is placed at the token, says what token it is, and
cites the rest of the input from there on, the token, or at the end of the input all of it. -/
structure ParseError.PointsTo (error : ParseError) (input : String) (token : Token) : Prop where
  position_eq : error.position = token.position
  blames : error.reason.Blames token.lexeme
  near :
    (error.reason.citesRest = true ∧
      ∃ before, input = before ++ error.near ∧ before.utf8ByteSize = error.position) ∨
    (error.reason.citesRest = false ∧ token.lexeme ≠ .endOfInput ∧
      error.near = token.lexeme.text) ∨
    (error.reason.citesRest = false ∧ error.position = input.utf8ByteSize ∧ error.near = input)

namespace ParseError

variable {input : String} {token : Token} {reason : ParseReason}

theorem pointsTo_fromToken (htoken : token ∈ Token.tokenize input)
    (hblames : reason.Blames token.lexeme) (hrest : reason.citesRest = true) :
    (fromToken input token reason).PointsTo input token :=
  ⟨rfl, hblames, .inl ⟨hrest, Token.eq_append_dropBytes_of_mem htoken⟩⟩

theorem pointsTo_atToken (htoken : token ∈ Token.list input ∨ token = Token.atEnd input)
    (hblames : reason.Blames token.lexeme) (hone : reason.citesRest = false) :
    (atToken input token reason).PointsTo input token := by
  rcases htoken with hlist | rfl
  · have hne := Token.lexeme_ne_endOfInput hlist
    exact ⟨rfl, hblames, .inr (.inl ⟨hone, hne, if_neg hne⟩)⟩
  · exact ⟨rfl, hblames, .inr (.inr ⟨hone, rfl, rfl⟩)⟩

theorem pointsTo_refusal {limit : Nat} {state : Parser.State}
    (hadvance : Parser.advance? limit state token.lexeme = none)
    (hplace : token ∈ Token.list input ∨
      token = Token.atEnd input ∧ Parser.complete? state = none) :
    (Parser.refusal input limit state token).PointsTo input token := by
  have htoken : token ∈ Token.list input ∨ token = Token.atEnd input :=
    hplace.imp_right And.left
  have hend : token.lexeme = .endOfInput → Parser.complete? state = none := by
    intro hlexeme
    rcases hplace with hlist | ⟨-, hcomplete⟩
    · exact absurd hlexeme (Token.lexeme_ne_endOfInput hlist)
    · exact hcomplete
  have hblames := Parser.blames_refusalReason hadvance hend
  unfold Parser.refusal
  dsimp only
  split
  · rename_i htrailing
    exact pointsTo_fromToken (Token.mem_tokenize_iff.mpr htoken) hblames
      (Parser.citesRest_refusalReason.mpr htrailing)
  · rename_i hother
    refine pointsTo_atToken htoken hblames ?_
    rw [Bool.eq_false_iff]
    exact fun hrest => hother (Parser.citesRest_refusalReason.mp hrest)

end ParseError

namespace SqlType

/-- The error of a text that is no type expression. -/
def error? (limit : Nat) (input : String) : Option ParseError :=
  match parseWithin limit input with
  | .ok _ => none
  | .error error => some error

theorem error?_eq_some_iff {limit : Nat} {input : String} {error : ParseError} :
    error? limit input = some error ↔ parseWithin limit input = .error error := by
  unfold error?
  cases parseWithin limit input <;> simp

theorem parseWithin_error {limit : Nat} {input : String} {error : ParseError}
    (h : parseWithin limit input = .error error) :
    ∃ token ∈ Token.tokenize input, error.PointsTo input token := by
  unfold parseWithin at h
  split at h
  · obtain ⟨state, token, rfl, hadvance, hplace⟩ := Parser.run_error h
    exact ⟨token, Token.mem_tokenize_iff.mpr (hplace.imp_right And.left),
      ParseError.pointsTo_refusal hadvance hplace⟩
  · rename_i mismatch hbalanced
    cases h
    obtain ⟨hmem, hblames, hrest⟩ := Brackets.mem_of_balanced_error hbalanced
    have htoken := Token.mem_tokenize_iff.mpr (.inl hmem)
    exact ⟨mismatch.token, htoken, ParseError.pointsTo_fromToken htoken hblames hrest⟩

/-- Every error points to a token of the input, so it lies in the input and between characters. -/
theorem error_pointsTo {limit : Nat} {input : String} {error : ParseError}
    (h : parseWithin limit input = .error error) :
    ∃ token ∈ Token.tokenize input, error.PointsTo input token ∧
      error.position ≤ input.utf8ByteSize ∧
      (⟨error.position⟩ : String.Pos.Raw).IsValid input := by
  obtain ⟨token, htoken, hpoints⟩ := parseWithin_error h
  obtain ⟨before, hinput, hposition⟩ := Token.eq_append_dropBytes_of_mem htoken
  rw [← hpoints.position_eq] at hposition
  refine ⟨token, htoken, hpoints, ?_, ?_⟩
  · rw [← hposition, hinput, String.utf8ByteSize_append]
    exact Nat.le_add_right _ _
  · refine String.Pos.Raw.isValid_iff_exists_append.mpr ⟨before, _, hinput, ?_⟩
    rw [← hposition]
    rfl

-- The umlauts take two bytes each.
theorem error_pointsTo_multibyte :
    parseWithin 2 "STRUCT<\x60ä ö\x60 FÖÖ>" = .error ⟨.unknownType, "FÖÖ", 15⟩ ∧
      ∃ token ∈ Token.tokenize "STRUCT<\x60ä ö\x60 FÖÖ>",
        ParseError.PointsTo ⟨.unknownType, "FÖÖ", 15⟩ "STRUCT<\x60ä ö\x60 FÖÖ>" token ∧
          15 ≤ "STRUCT<\x60ä ö\x60 FÖÖ>".utf8ByteSize ∧
          (⟨15⟩ : String.Pos.Raw).IsValid "STRUCT<\x60ä ö\x60 FÖÖ>" := by
  have herror : error? 2 "STRUCT<\x60ä ö\x60 FÖÖ>" = some ⟨.unknownType, "FÖÖ", 15⟩ := by
    decide +kernel
  have hparse := error?_eq_some_iff.mp herror
  exact ⟨hparse, error_pointsTo hparse⟩

/-! ## Brackets that are never closed -/

-- The openers that an input leaves stand in it from the outermost to the innermost.
theorem position_lt_of_leaves {input : String} {opener : Token} {outer : List Token}
    (h : Brackets.Leaves (Brackets.among (Token.list input)) (opener :: outer)) :
    ∀ other ∈ outer, other.position < opener.position := by
  have hsublist : (opener :: outer).reverse.Sublist (Token.list input) :=
    h.sublist.trans List.filter_sublist
  have hordered := List.pairwise_reverse.mp ((Token.pairwise_position input).sublist hsublist)
  exact (List.pairwise_cons.mp hordered).1

theorem parseWithin_of_leaves (limit : Nat) {input : String} {opener : Token} {outer : List Token}
    (h : Brackets.Leaves (Brackets.among (Token.list input)) (opener :: outer)) :
    parseWithin limit input = .error (.fromToken input opener (.unmatched opener.lexeme)) := by
  have hbalanced : Brackets.balanced (Token.list input) =
      .error ⟨.unmatched opener.lexeme, opener⟩ := by
    have hcheck : Brackets.check [] (Brackets.among (Token.list input) ++ []) =
        Brackets.check (opener :: outer ++ []) [] := h.check
    rw [List.append_nil, Brackets.check_among] at hcheck
    exact hcheck
  rw [parseWithin, hbalanced]

theorem leaves_of_parseWithin {limit : Nat} {input : String} {opener : Token} {near : String}
    (hopener : Brackets.isOpener opener.lexeme = true)
    (h : parseWithin limit input =
      .error ⟨.unmatched opener.lexeme, near, opener.position⟩) :
    ∃ outer, Brackets.Leaves (Brackets.among (Token.list input)) (opener :: outer) := by
  unfold parseWithin at h
  split at h
  · -- the reader itself finds no fault with brackets
    obtain ⟨state, token, herror, -⟩ := Parser.run_error h
    have hreason := congrArg ParseError.reason herror
    rw [Parser.reason_refusal] at hreason
    have hrest : (Parser.refusalReason limit state token.lexeme).citesRest = true := by
      rw [← hreason]
      rfl
    rw [Parser.citesRest_refusalReason.mp hrest] at hreason
    cases hreason
  · rename_i mismatch hbalanced
    injection h with herror
    injection herror with hreason _ hposition
    rcases Brackets.balanced_error hbalanced with ⟨other, outer, hleft, rfl⟩ |
      ⟨front, closer, back, left, -, -, hcloser, ⟨-, rfl⟩ | ⟨other, outer, -, -, rfl⟩⟩
    · injection hreason with hlexeme
      have hsame : other = opener := by
        cases other
        cases opener
        rw [Token.mk.injEq]
        exact ⟨hlexeme, hposition⟩
      rw [← hsame]
      exact ⟨outer, hleft⟩
    · injection hreason with hlexeme
      rw [← hlexeme, Brackets.isOpener_of_isCloser hcloser] at hopener
      cases hopener
    · cases hreason

/-- Of openers that nothing closes the innermost is reported, which stands furthest to the right, with
the input from there on.  Conversely this error is reported for no other brackets. -/
theorem error_of_unclosed (limit : Nat) (input : String) :
    (∀ opener outer, Brackets.Leaves (Brackets.among (Token.list input)) (opener :: outer) →
      (∀ other ∈ outer, other.position < opener.position) ∧
        ∃ before near, input = before ++ near ∧ before.utf8ByteSize = opener.position ∧
          parseWithin limit input =
            .error ⟨.unmatched opener.lexeme, near, opener.position⟩) ∧
      ∀ opener near, Brackets.isOpener opener.lexeme = true →
        parseWithin limit input = .error ⟨.unmatched opener.lexeme, near, opener.position⟩ →
          ∃ outer, Brackets.Leaves (Brackets.among (Token.list input)) (opener :: outer) := by
  refine ⟨fun opener outer h => ⟨position_lt_of_leaves h, ?_⟩,
    fun opener near => leaves_of_parseWithin⟩
  have hmem := Token.mem_tokenize_iff.mpr (.inl (h.mem_of_mem_among List.mem_cons_self))
  obtain ⟨before, hinput, hposition⟩ := Token.eq_append_dropBytes_of_mem hmem
  exact ⟨before, _, hinput, hposition, parseWithin_of_leaves limit h⟩

-- The struct and the outer array are not closed.
theorem error_of_unclosed_struct :
    Brackets.Leaves (Brackets.among (Token.list "STRUCT<a NUMERIC(1), b ARRAY<ARRAY<INT64>"))
        [⟨.less, 28⟩, ⟨.less, 6⟩] ∧
      Brackets.isOpener .less = true ∧
      parseWithin 9 "STRUCT<a NUMERIC(1), b ARRAY<ARRAY<INT64>" =
        .error ⟨.unmatched .less, "<ARRAY<INT64>", 28⟩ ∧
      (∀ other ∈ [(⟨.less, 6⟩ : Token)], other.position < 28) ∧
      ∃ outer, Brackets.Leaves
        (Brackets.among (Token.list "STRUCT<a NUMERIC(1), b ARRAY<ARRAY<INT64>"))
        (⟨.less, 28⟩ :: outer) := by
  have hleaves : Brackets.Leaves
      (Brackets.among (Token.list "STRUCT<a NUMERIC(1), b ARRAY<ARRAY<INT64>"))
      [⟨.less, 28⟩, ⟨.less, 6⟩] := by
    have hamong : Brackets.among (Token.list "STRUCT<a NUMERIC(1), b ARRAY<ARRAY<INT64>") =
        [⟨.less, 6⟩] ++ [⟨.leftParen, 16⟩, ⟨.rightParen, 18⟩] ++
          ⟨.less, 28⟩ :: [⟨.less, 34⟩, ⟨.greater, 40⟩] := by
      decide +kernel
    have hparen : Brackets.Nested [⟨.leftParen, 16⟩, ⟨.rightParen, 18⟩] := .enclosed rfl .empty
    have hangle : Brackets.Nested [⟨.less, 34⟩, ⟨.greater, 40⟩] := .enclosed rfl .empty
    have houter : Brackets.Leaves [⟨.less, 6⟩] [⟨.less, 6⟩] :=
      .opener (.none .empty) rfl .empty
    rw [hamong]
    exact .opener (houter.append hparen) rfl hangle
  have herror : error? 9 "STRUCT<a NUMERIC(1), b ARRAY<ARRAY<INT64>" =
      some ⟨.unmatched .less, "<ARRAY<INT64>", 28⟩ := by
    decide +kernel
  have hparse := error?_eq_some_iff.mp herror
  obtain ⟨hinnermost, hconverse⟩ :=
    error_of_unclosed 9 "STRUCT<a NUMERIC(1), b ARRAY<ARRAY<INT64>"
  exact ⟨hleaves, rfl, hparse, (hinnermost _ _ hleaves).1, hconverse ⟨.less, 28⟩ _ rfl hparse⟩

-- The leftmost of the two openers starts at 5.
theorem innermost_not_leftmost :
    Brackets.Leaves (Brackets.among (Token.list "ARRAY<ARRAY<STRING"))
        [⟨.less, 11⟩, ⟨.less, 5⟩] ∧
      parse "ARRAY<ARRAY<STRING" = .error ⟨.unmatched .less, "<STRING", 11⟩ ∧
      ¬∃ reason near, parse "ARRAY<ARRAY<STRING" = .error ⟨reason, near, 5⟩ := by
  have hleaves : Brackets.Leaves (Brackets.among (Token.list "ARRAY<ARRAY<STRING"))
      [⟨.less, 11⟩, ⟨.less, 5⟩] := by
    have hamong : Brackets.among (Token.list "ARRAY<ARRAY<STRING") =
        [⟨.less, 5⟩] ++ [⟨.less, 11⟩] := by
      decide +kernel
    rw [hamong]
    exact .opener (.opener (.none .empty) rfl .empty) rfl .empty
  have herror : error? defaultMaxDepth "ARRAY<ARRAY<STRING" =
      some ⟨.unmatched .less, "<STRING", 11⟩ := by
    decide +kernel
  have hparse : parse "ARRAY<ARRAY<STRING" = .error ⟨.unmatched .less, "<STRING", 11⟩ :=
    error?_eq_some_iff.mp herror
  refine ⟨hleaves, hparse, ?_⟩
  rintro ⟨reason, near, hleftmost⟩
  rw [hparse] at hleftmost
  cases hleftmost

end SqlType

end SchemaCatalog
