import SchemaCatalog.Proofs.SqlType.Respelling
import SchemaCatalog.Proofs.SqlType.Rescanning

/-!
# White space between tokens

Two inputs with the same lexemes are read alike, wherever the lexemes stand.  The texts of the lexemes
of an input, written one behind the other with white space between them, have these lexemes again.
-/

namespace SchemaCatalog

/-! ## Reading depends on the lexemes only -/

/-- All tokens at one place. -/
def Respelling.unplaced : Respelling :=
  .keepingNames id fun _ => 0

theorem Lexeme.respell_unplaced (lexeme : Lexeme) : lexeme.respell .unplaced = lexeme := by
  cases lexeme <;> rfl

theorem ParseReason.respell_unplaced (reason : ParseReason) : reason.respell .unplaced = reason := by
  cases reason with
  | unmatched bracket => rw [respell, Lexeme.respell_unplaced]
  | mismatched opener closer => rw [respell, Lexeme.respell_unplaced, Lexeme.respell_unplaced]
  | expected wanted found => rw [respell, Lexeme.respell_unplaced]
  | _ => rfl

theorem Token.map_respell_unplaced (tokens : List Token) :
    tokens.map (Token.respell .unplaced) = (tokens.map Token.lexeme).map (⟨·, 0⟩) := by
  rw [List.map_map]
  apply List.map_congr_left
  intro token _
  exact congrArg (Token.mk · 0) (Lexeme.respell_unplaced token.lexeme)

namespace SqlType

variable {input other : String}

-- Inputs with the same lexemes are both read as one type, or refused for one reason.
theorem parseWithin_of_lexemes_eq (limit : Nat) (h : Token.lexemes other = Token.lexemes input) :
    (∃ type, parseWithin limit input = .ok type ∧ parseWithin limit other = .ok type) ∨
      ∃ error error', parseWithin limit input = .error error ∧
        parseWithin limit other = .error error' ∧ error'.reason = error.reason := by
  have htokens : (Token.list other).map (Token.respell .unplaced) =
      (Token.list input).map (Token.respell .unplaced) := by
    rw [Token.map_respell_unplaced, Token.map_respell_unplaced]
    exact congrArg _ h
  rcases parseWithin_alike .unplaced limit htokens rfl with
    ⟨type, type', hinput, hother, htype⟩ | ⟨error, error', hinput, hother, hreason, -⟩
  · have hsame : type' = type := by
      rw [← mapNames_id type', ← mapNames_id type]
      exact htype
    exact .inl ⟨type, hinput, hsame ▸ hother⟩
  · rw [ParseReason.respell_unplaced, ParseReason.respell_unplaced] at hreason
    exact .inr ⟨error, error', hinput, hother, hreason⟩

end SqlType

namespace Token

/-- Lexemes one behind the other, with white space between any two and perhaps before the first. -/
inductive Spaced : List Lexeme → List Char → Prop where
  | blank {gap : List Char} (hgap : ∀ c ∈ gap, Text.isWhiteSpace c = true) : Spaced [] gap
  | last {gap : List Char} {lexeme : Lexeme} (hgap : ∀ c ∈ gap, Text.isWhiteSpace c = true) :
      Spaced [lexeme] (gap ++ lexeme.text.toList)
  | more {gap text : List Char} {lexeme next : Lexeme} {rest : List Lexeme} {space : Char}
      (hgap : ∀ c ∈ gap, Text.isWhiteSpace c = true) (hspace : Text.isWhiteSpace space = true)
      (hrest : Spaced (next :: rest) (space :: text)) :
      Spaced (lexeme :: next :: rest) (gap ++ (lexeme.text.toList ++ space :: text))

-- The texts of the lexemes of a text have these lexemes again, if white space keeps them apart.
theorem Spaced.scan_eq {text other : List Char} (h : Spaced (scan text) other) :
    scan other = scan text := by
  induction text using begins_induct generalizing other with
  | nil =>
    rw [scan_nil] at h ⊢
    cases h with
    | blank hgap =>
      have hscan := scan_append_of_isWhiteSpace hgap []
      rwa [List.append_nil, scan_nil] at hscan
  | space c rest hc ih =>
    rw [scan_of_isWhiteSpace hc] at h ⊢
    exact ih h
  | token text lexeme after hbegins ih =>
    rw [scan_of_begins hbegins] at h ⊢
    generalize hlexemes : scan after = lexemes at h
    cases h with
    | @last gap _ hgap =>
      have hagain := scan_of_begins (hbegins.of_endsBefore (Lexeme.endsBefore_nil lexeme))
      rw [List.append_nil, scan_nil] at hagain
      rw [scan_append_of_isWhiteSpace hgap, hagain]
    | @more gap other _ next rest space hgap hspace hrest =>
      -- something follows the lexeme in the first text, so the lexeme is no unclosed quote
      have hafter : after ≠ [] := by
        rintro rfl
        rw [scan_nil] at hlexemes
        cases hlexemes
      have hends := hbegins.endsBefore.space hafter hspace other
      rw [scan_append_of_isWhiteSpace hgap, scan_of_begins (hbegins.of_endsBefore hends),
        ih (hlexemes ▸ hrest), hlexemes]

end Token

namespace SqlType

/-- **Spacing does not matter.** The lexemes of an input, written with any white space between them,
are read again as they are, and give the same type or an error with the same message. -/
theorem parseWithin_of_spaced (limit : Nat) {input other : String}
    (h : Token.Spaced (Token.lexemes input) other.toList) :
    (Token.tokenize other).map Token.lexeme = (Token.tokenize input).map Token.lexeme ∧
      ((∃ type, parseWithin limit input = .ok type ∧ parseWithin limit other = .ok type) ∨
        ∃ error error', parseWithin limit input = .error error ∧
          parseWithin limit other = .error error' ∧
          error'.reason.message = error.reason.message) := by
  have hlexemes : Token.lexemes other = Token.lexemes input := h.scan_eq
  constructor
  · rw [Token.tokenize, Token.tokenize, List.map_append, List.map_append]
    exact congrArg (· ++ [Lexeme.endOfInput]) hlexemes
  · rcases parseWithin_of_lexemes_eq limit hlexemes with
      hread | ⟨error, error', hinput, hother, hreason⟩
    · exact .inl hread
    · exact .inr ⟨error, error', hinput, hother, congrArg ParseReason.message hreason⟩

-- A number in front of a name, and a quote that is never closed.
theorem parseWithin_of_spaced_unclosed :
    Token.Spaced (Token.lexemes "ARRAY<10a>\x60 x") "\n ARRAY <\t10\u2003a > \x60 x".toList ∧
      (Token.tokenize "\n ARRAY <\t10\u2003a > \x60 x").map Token.lexeme =
        (Token.tokenize "ARRAY<10a>\x60 x").map Token.lexeme ∧
      ((∃ type, parseWithin 9 "ARRAY<10a>\x60 x" = .ok type ∧
          parseWithin 9 "\n ARRAY <\t10\u2003a > \x60 x" = .ok type) ∨
        ∃ error error', parseWithin 9 "ARRAY<10a>\x60 x" = .error error ∧
          parseWithin 9 "\n ARRAY <\t10\u2003a > \x60 x" = .error error' ∧
          error'.reason.message = error.reason.message) := by
  have hlexemes : Token.lexemes "ARRAY<10a>\x60 x" =
      [.identifier "ARRAY", .less, .number "10", .identifier "a", .greater,
        .illegal "\x60 x"] := by
    decide +kernel
  have hspaced : Token.Spaced (Token.lexemes "ARRAY<10a>\x60 x")
      "\n ARRAY <\t10\u2003a > \x60 x".toList := by
    rw [hlexemes]
    refine @Token.Spaced.more ['\n', ' '] _ _ _ _ ' ' (List.all_eq_true.mp rfl) rfl ?_
    refine @Token.Spaced.more [' '] _ _ _ _ '\t' (List.all_eq_true.mp rfl) rfl ?_
    refine @Token.Spaced.more ['\t'] _ _ _ _ '\u2003' (List.all_eq_true.mp rfl) rfl ?_
    refine @Token.Spaced.more ['\u2003'] _ _ _ _ ' ' (List.all_eq_true.mp rfl) rfl ?_
    refine @Token.Spaced.more [' '] _ _ _ _ ' ' (List.all_eq_true.mp rfl) rfl ?_
    exact @Token.Spaced.last [' '] _ (List.all_eq_true.mp rfl)
  exact ⟨hspaced, parseWithin_of_spaced 9 hspaced⟩

end SqlType

end SchemaCatalog
