import SchemaCatalog.Proofs.SqlType.Respelling

/-!
# Reading under two limits

A state in which a type would start too deep is blocked: every token is refused there, and so is the
end of the input.  In any other state a larger limit changes neither the step nor the refusal.  So two
runs go together until the smaller limit blocks one of them, and this is the error that it reports.
-/

namespace SchemaCatalog

namespace Parser

/-- A type would start here inside as many others as the limit allows. -/
def State.Blocked (limit : Nat) (state : State) : Prop :=
  state.next = .type ∧ limit ≤ state.opened.length

section

variable {limit larger : Nat} {state : State}

theorem advance?_of_blocked (h : state.Blocked limit) (lexeme : Lexeme) :
    advance? limit state lexeme = none := by
  obtain ⟨hnext, hdepth⟩ := h
  unfold advance?
  rw [hnext]
  cases lexeme with
  | identifier name => exact if_pos hdepth
  | _ => rfl

theorem complete?_of_blocked (h : state.Blocked limit) : complete? state = none := by
  rcases state with ⟨opened, next⟩
  obtain ⟨rfl, -⟩ := h
  cases opened <;> rfl

theorem refusalReason_of_blocked (h : state.Blocked limit) (lexeme : Lexeme) :
    refusalReason limit state lexeme = .tooDeep limit := by
  unfold refusalReason
  rw [h.1]
  exact if_pos h.2

-- A blocked state has no other verdict, whatever the tokens are.
theorem follow_of_blocked (h : state.Blocked limit) (last : Token) (tokens : List Token) :
    ∃ token, follow limit state last tokens = .error ⟨.tooDeep limit, token⟩ := by
  cases tokens with
  | nil =>
    refine ⟨last, ?_⟩
    rw [follow, complete?_of_blocked h, faultAt, refusalReason_of_blocked h]
  | cons token rest =>
    refine ⟨token, ?_⟩
    rw [follow, advance?_of_blocked h, faultAt, refusalReason_of_blocked h]

variable (hle : limit ≤ larger) (h : ¬state.Blocked limit)

include hle h

theorem advance?_of_not_blocked (lexeme : Lexeme) :
    advance? larger state lexeme = advance? limit state lexeme := by
  rcases state with ⟨opened, next⟩
  cases next with
  | type =>
    have hdepth : ¬limit ≤ opened.length := fun hdepth => h ⟨rfl, hdepth⟩
    have hlarger : ¬larger ≤ opened.length := by omega
    cases lexeme with
    | identifier name => exact (if_neg hlarger).trans (if_neg hdepth).symm
    | _ => rfl
  | _ => cases lexeme <;> rfl

theorem refusalReason_of_not_blocked (lexeme : Lexeme) :
    refusalReason larger state lexeme = refusalReason limit state lexeme := by
  rcases state with ⟨opened, next⟩
  cases next with
  | type =>
    have hdepth : ¬limit ≤ opened.length := fun hdepth => h ⟨rfl, hdepth⟩
    have hlarger : ¬larger ≤ opened.length := by omega
    exact (if_neg hlarger).trans (if_neg hdepth).symm
  | _ => rfl

theorem faultAt_of_not_blocked (token : Token) :
    faultAt larger state token = faultAt limit state token :=
  congrArg (Fault.mk · token) (refusalReason_of_not_blocked hle h token.lexeme)

end

-- The larger limit changes a verdict only if the smaller one is what is wrong with the tokens.
theorem follow_of_le {limit larger : Nat} (hle : limit ≤ larger) (state : State) (last : Token)
    (tokens : List Token) :
    (∃ token, follow limit state last tokens = .error ⟨.tooDeep limit, token⟩) ∨
      follow larger state last tokens = follow limit state last tokens := by
  induction tokens generalizing state with
  | nil =>
    by_cases hblocked : state.Blocked limit
    · exact .inl (follow_of_blocked hblocked last [])
    · right
      rw [follow, follow, faultAt_of_not_blocked hle hblocked]
  | cons token rest ih =>
    by_cases hblocked : state.Blocked limit
    · exact .inl (follow_of_blocked hblocked last (token :: rest))
    · rw [follow, follow, advance?_of_not_blocked hle hblocked,
        faultAt_of_not_blocked hle hblocked]
      cases advance? limit state token.lexeme with
      | some next => exact ih next
      | none => exact .inr rfl

theorem verdict_of_le {limit larger : Nat} (hle : limit ≤ larger) (tokens : List Token)
    (last : Token) :
    (∃ token, verdict limit tokens last = .error ⟨.tooDeep limit, token⟩) ∨
      verdict larger tokens last = verdict limit tokens last := by
  rw [verdict, verdict]
  cases Brackets.balanced tokens with
  | ok matched => exact follow_of_le hle .start last tokens
  | error mismatch => exact .inr rfl

end Parser

namespace SqlType

/-- **A limit only adds errors about the limit.** Reading under a smaller limit reports that types
nest deeper than it, or it gives what reading under the larger one gives: the same type, or the same
error at the same place. -/
theorem parseWithin_of_le {limit larger : Nat} (hle : limit ≤ larger) (input : String) :
    (∃ error, parseWithin limit input = .error error ∧
        error.reason.message = "type nesting too deep (limit " ++ toString limit ++ ")") ∨
      parseWithin larger input = parseWithin limit input := by
  rw [Parser.parseWithin_eq_verdict, Parser.parseWithin_eq_verdict]
  rcases Parser.verdict_of_le hle (Token.list input) (Token.atEnd input) with
    ⟨token, hdeep⟩ | hsame
  · rw [hdeep]
    exact .inl ⟨_, rfl, congrArg ParseReason.message (Parser.Fault.reason_cite input _)⟩
  · rw [hsame]
    exact .inr rfl

-- The first field nests as deep as the limit allows, so the second may nest as deep again.
theorem parseWithin_of_le_siblings :
    3 ≤ 256 ∧
      ((∃ error,
          parseWithin 3 "STRUCT<a ARRAY<INT64>, b ARRAY<INT64>>" = .error error ∧
          error.reason.message = "type nesting too deep (limit " ++ toString 3 ++ ")") ∨
        parseWithin 256 "STRUCT<a ARRAY<INT64>, b ARRAY<INT64>>" =
          parseWithin 3 "STRUCT<a ARRAY<INT64>, b ARRAY<INT64>>") :=
  ⟨by decide, parseWithin_of_le (by decide) _⟩

end SqlType

end SchemaCatalog
