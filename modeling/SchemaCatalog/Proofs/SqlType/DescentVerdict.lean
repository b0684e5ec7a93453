import SchemaCatalog.Proofs.SqlType.NestingLimit
import SchemaCatalog.Proofs.SqlType.Progress

/-!
# Reading by descent gives the verdict

The reader that takes one token at a time keeps on a stack what the functions of the descent keep in
their calls.  Where a function stands, the other reader is in a state that fits: its stack has as many
types as are begun around the function.  From there the two go the same way, to the same fault or to
states that fit again.  So a whole input is read by descent as it is read a token at a time.
-/

namespace SchemaCatalog.Parser.Descent

variable {tokens : List Token} {limit : Nat} {α β : Type} {start : Position tokens limit}

/-! ## Tokens that fit no state -/

section

variable {opened : List Frame} {lexeme : Lexeme}

theorem advance?_afterParameter {kind : TypeKind} (hcomma : lexeme ≠ .comma)
    (hclosing : lexeme ≠ .rightParen) :
    advance? limit ⟨opened, .afterParameter kind⟩ lexeme = none := by
  cases lexeme with
  | comma => exact absurd rfl hcomma
  | rightParen => exact absurd rfl hclosing
  | _ => rfl

theorem advance?_afterElement {element : SqlType} (hclosing : lexeme ≠ .greater) :
    advance? limit ⟨.array :: opened, .afterType element⟩ lexeme = none := by
  cases lexeme with
  | greater => exact absurd rfl hclosing
  | _ => rfl

theorem advance?_afterField {fields : List StructField} {name : String} {type : SqlType}
    (hcomma : lexeme ≠ .comma) (hclosing : lexeme ≠ .greater) :
    advance? limit ⟨.struct fields name :: opened, .afterType type⟩ lexeme = none := by
  cases lexeme with
  | comma => exact absurd rfl hcomma
  | greater => exact absurd rfl hclosing
  | _ => rfl

theorem advance?_of_not_name (hname : ∀ name, lexeme ≠ .identifier name) :
    advance? limit ⟨opened, .type⟩ lexeme = none := by
  cases lexeme with
  | identifier name => exact absurd rfl (hname name)
  | _ => rfl

theorem advance?_arrayOpening (hopening : lexeme ≠ .less) :
    advance? limit ⟨opened, .arrayOpening⟩ lexeme = none := by
  cases lexeme with
  | less => exact absurd rfl hopening
  | _ => rfl

theorem advance?_structOpening (hopening : lexeme ≠ .less) :
    advance? limit ⟨opened, .structOpening⟩ lexeme = none := by
  cases lexeme with
  | less => exact absurd rfl hopening
  | _ => rfl

end

/-! ## The tokens before a position -/

/-- The tokens from the cursor to the end of the input, which is not among them. -/
def Position.rest (position : Position tokens limit) : List Token :=
  tokens.dropLast.drop position.cursor

section

variable {last : Token} (hlast : tokens.getLast? = some last)

include hlast

theorem Position.rest_cases (start : Position tokens limit) :
    start.rest = [] ∧ start.current = last ∨
      start.rest = start.current :: start.advance.rest := by
  by_cases hnext : start.cursor + 1 < tokens.length
  · right
    have hmem : start.cursor < tokens.dropLast.length := by
      rw [List.length_dropLast]
      omega
    have hadvance : start.advance.rest = tokens.dropLast.drop (start.cursor + 1) := by
      rw [rest, advance, dif_pos hnext]
    rw [hadvance, rest, List.drop_eq_getElem_cons hmem, List.getElem_dropLast]
    rfl
  · left
    refine ⟨?_, current_of_last hlast hnext⟩
    rw [rest, List.drop_eq_nil_iff, List.length_dropLast]
    omega

theorem follow_of_refused {state : State}
    (h : advance? limit state start.current.lexeme = none)
    (hincomplete : state.opened = [] → state.next.complete? = none) :
    follow limit state last start.rest = .error (faultAt limit state start.current) := by
  have hcomplete : complete? state = none := by
    refine Option.eq_none_iff_forall_ne_some.mpr fun type hsome => ?_
    obtain ⟨hopened, hnext⟩ := complete?_eq_some_iff.mp hsome
    rw [hincomplete hopened] at hnext
    cases hnext
  rcases Position.rest_cases hlast start with ⟨hrest, hcurrent⟩ | hrest
  · rw [hrest, follow, hcomplete, hcurrent]
  · rw [hrest, follow, h]

-- No state moves on the end of the input.
theorem follow_of_fits (hend : last.lexeme = .endOfInput) {state next : State}
    (h : advance? limit state start.current.lexeme = some next) :
    follow limit state last start.rest = follow limit next last start.advance.rest := by
  rcases Position.rest_cases hlast start with ⟨-, hcurrent⟩ | hrest
  · rw [hcurrent, hend, advance?_endOfInput] at h
    cases h
  · rw [hrest, follow, h]

-- Without parameters, a kind is a complete type.
theorem follow_afterKind {opened : List Frame} {kind : TypeKind}
    (hne : start.current.lexeme ≠ .leftParen) :
    follow limit ⟨opened, .afterKind kind⟩ last start.rest =
      follow limit ⟨opened, .afterType (.simple kind)⟩ last start.rest := by
  rcases Position.rest_cases hlast start with ⟨hrest, -⟩ | hrest
  · rw [hrest, follow, follow]
    cases opened <;> rfl
  · have hadvance : advance? limit ⟨opened, .afterKind kind⟩ start.current.lexeme =
        advance? limit ⟨opened, .afterType (.simple kind)⟩ start.current.lexeme := by
      cases hlexeme : start.current.lexeme with
      | leftParen => exact absurd hlexeme hne
      | _ => rfl
    rw [hrest, follow, follow, hadvance]
    rfl

end

/-! ## Going the same way -/

/-- What the reader ends with is what the other one comes to: the fault, or the value and a state in
which it goes on. -/
def Agrees (last : Token) (state : State) (start : Position tokens limit)
    (fits : α → State → Position tokens limit → Prop) :
    Except Fault α → Position tokens limit → Prop
  | .ok value, after => ∃ stop, fits value stop after ∧
      follow limit state last start.rest = follow limit stop last after.rest
  | .error fault, _ => follow limit state last start.rest = .error fault

/-- The reader returns, and it goes the same way from the position as the other from the state. -/
def Follows (last : Token) (state : State) (reader : Reader tokens limit α)
    (start : Position tokens limit) (fits : α → State → Position tokens limit → Prop) : Prop :=
  Returns reader start (Agrees last state start fits)

section

variable {last : Token} {state : State} {reader : Reader tokens limit α}
  {next : α → Reader tokens limit β} {fits : α → State → Position tokens limit → Prop}
  {final : β → State → Position tokens limit → Prop}

theorem follows_pure {value : α} (h : fits value state start) :
    Follows last state (pure value) start fits :=
  returns_pure ⟨state, h, rfl⟩

theorem Follows.mono {weaker : α → State → Position tokens limit → Prop}
    (h : Follows last state reader start fits)
    (himp : ∀ value stop after, fits value stop after → weaker value stop after) :
    Follows last state reader start weaker := by
  refine Returns.mono h fun outcome after hagrees => ?_
  cases outcome with
  | ok value =>
    obtain ⟨stop, hfits, hfollow⟩ := hagrees
    exact ⟨stop, himp value stop after hfits, hfollow⟩
  | error fault => exact hagrees

theorem Follows.bind (h : Follows last state reader start fits)
    (hnext : ∀ value stop after, fits value stop after → Follows last stop (next value) after final) :
    Follows last state (reader >>= next) start final := by
  refine Returns.bind h (fun value after hagrees => ?_) fun _ _ hagrees => hagrees
  obtain ⟨stop, hfits, hfollow⟩ := hagrees
  refine Returns.mono (hnext value stop after hfits) fun outcome behind hbehind => ?_
  cases outcome with
  | ok result =>
    obtain ⟨stop, hfinal, hresult⟩ := hbehind
    exact ⟨stop, hfinal, hfollow.trans hresult⟩
  | error fault => exact hfollow.trans hbehind

theorem Follows.progress (h : Follows last state reader start fits)
    (hprogress : Progresses reader start) :
    Follows last state reader start fun value stop after =>
      Progress start (.ok value) after ∧ fits value stop after := by
  refine (Returns.and h hprogress).mono fun outcome after hboth => ?_
  obtain ⟨hagrees, hprogress⟩ := hboth
  cases outcome with
  | ok value =>
    obtain ⟨stop, hfits, hfollow⟩ := hagrees
    exact ⟨stop, ⟨hprogress, hfits⟩, hfollow⟩
  | error fault => exact hagrees

end

section

variable {last : Token} (hlast : tokens.getLast? = some last)

include hlast

theorem follows_refuse {state : State} {reason : ParseReason}
    {fits : α → State → Position tokens limit → Prop}
    (hadvance : advance? limit state start.current.lexeme = none)
    (hincomplete : state.opened = [] → state.next.complete? = none)
    (hreason : refusalReason limit state start.current.lexeme = reason) :
    Follows last state (refuse reason) start fits := by
  refine returns_refuse ?_
  rw [← hreason]
  exact follow_of_refused hlast hadvance hincomplete

variable (hend : last.lexeme = .endOfInput)

include hend

theorem follows_advance {state stop : State}
    (h : advance? limit state start.current.lexeme = some stop) :
    Follows last state advance start fun _ reached after =>
      Progress start (.ok ()) after ∧ reached = stop := by
  have hne : start.current.lexeme ≠ .endOfInput := by
    intro hlexeme
    rw [hlexeme, advance?_endOfInput] at h
    cases h
  exact returns_advance
    ⟨stop, ⟨progress_advance hlast hend hne, rfl⟩, follow_of_fits hlast hend h⟩

theorem follows_expect {state stop : State} {wanted : Wanted} {lexeme : Lexeme}
    (hstep : advance? limit state lexeme = some stop)
    (hincomplete : state.opened = [] → state.next.complete? = none)
    (hother : start.current.lexeme ≠ lexeme →
      advance? limit state start.current.lexeme = none ∧
        refusalReason limit state start.current.lexeme =
          .expected wanted start.current.lexeme) :
    Follows last state (expect wanted lexeme) start fun _ reached after =>
      Progress start (.ok ()) after ∧ reached = stop := by
  refine returns_look_bind ?_
  split
  · rename_i hfound
    exact follows_advance hlast hend (hfound ▸ hstep)
  · rename_i hfound
    obtain ⟨hadvance, hreason⟩ := hother hfound
    exact follows_refuse hlast hadvance hincomplete hreason

/-- After an item of a list: behind a comma, or before something else. -/
def AfterItem (another ended : State) : Bool → State → Position tokens limit → Prop
  | true, state, _ => state = another
  | false, state, after => state = ended ∧ after.current.lexeme ≠ .comma

theorem follows_stepOverComma {state another : State}
    (hcomma : advance? limit state .comma = some another) :
    Follows last state stepOverComma start (AfterItem another state) := by
  refine returns_look_bind ?_
  split
  · rename_i hlexeme
    refine (follows_advance hlast hend (hlexeme ▸ hcomma)).bind fun _ _ _ hstep => ?_
    exact follows_pure hstep.2
  · rename_i hlexeme
    exact follows_pure ⟨rfl, hlexeme⟩

/-! ## Parameters -/

section

variable {opened : List Frame} {kind : TypeKind}

theorem follows_readParameter (start : Position tokens limit) :
    Follows last ⟨opened, .parameter kind⟩ readParameter start
      (AfterItem ⟨opened, .parameter kind⟩ ⟨opened, .afterParameter kind⟩) := by
  refine returns_look_bind ?_
  split
  · rename_i hparameter
    have hstep : advance? limit ⟨opened, .parameter kind⟩ start.current.lexeme =
        some ⟨opened, .afterParameter kind⟩ := if_pos hparameter
    refine (follows_advance hlast hend hstep).bind fun _ _ after hstop => ?_
    rw [hstop.2]
    exact follows_stepOverComma hlast hend rfl
  · rename_i hparameter
    exact follows_refuse hlast (if_neg hparameter) (fun _ => rfl) rfl

theorem follows_readParameters {fuel : Nat} (hfuel : tokens.length ≤ start.cursor + fuel) :
    Follows last ⟨opened, .parameter kind⟩ (readParameters fuel) start fun _ stop after =>
      stop = ⟨opened, .afterParameter kind⟩ ∧ after.current.lexeme ≠ .comma := by
  have hstart := start.cursor_lt
  induction fuel generalizing start with
  | zero => omega
  | succ fuel ih =>
    refine ((follows_readParameter hlast hend start).progress
      (progresses_readParameter hlast hend start)).bind fun more stop after hread => ?_
    obtain ⟨hprogress, hitem⟩ := hread
    have hlt := hprogress.cursor_lt more rfl
    cases more with
    | true =>
      cases hitem
      exact ih (by omega) after.cursor_lt
    | false => exact follows_pure hitem

theorem follows_readParameterList {fuel : Nat} (hfuel : tokens.length ≤ start.cursor + fuel) :
    Follows last ⟨opened, .afterKind kind⟩ (readParameterList fuel) start fun _ stop _ =>
      stop = ⟨opened, .afterType (.simple kind)⟩ := by
  refine returns_look_bind ?_
  split
  · rename_i hopening
    have hstep : advance? limit ⟨opened, .afterKind kind⟩ start.current.lexeme =
        some ⟨opened, .parameter kind⟩ := by
      rw [hopening]
      rfl
    refine (follows_advance hlast hend hstep).bind fun _ _ after hstop => ?_
    obtain ⟨hprogress, rfl⟩ := hstop
    have hle := hprogress.cursor_le
    refine (follows_readParameters hlast hend (by omega)).bind fun _ _ behind hread => ?_
    rw [hread.1]
    have hclose : advance? limit ⟨opened, .afterParameter kind⟩ .rightParen =
        some ⟨opened, .afterType (.simple kind)⟩ := rfl
    refine (follows_expect hlast hend hclose (fun _ => rfl) fun hclosing => ?_).mono
      fun _ _ _ hstop => hstop.2
    exact ⟨advance?_afterParameter hread.2 hclosing, rfl⟩
  · rename_i hopening
    exact returns_pure ⟨_, rfl, follow_afterKind hlast hopening⟩

end

/-! ## Types -/

/-- The reader reads a type as the other one does, whatever types are begun around it. -/
def ReadsType (last : Token) (reader : Reader tokens limit SqlType)
    (start : Position tokens limit) : Prop :=
  ∀ opened : List Frame, opened.length = start.depth →
    Follows last ⟨opened, .type⟩ reader start fun type stop _ => stop = ⟨opened, .afterType type⟩

section

-- The types inside begin further on than some place, and there their reader is known to do so.
variable {readInner : Reader tokens limit SqlType} {place : Nat} {opened : List Frame}
  (hinner : ∀ further : Position tokens limit, place < further.cursor →
    ReadsType last readInner further)

include hinner

theorem follows_readArray (hplace : place ≤ start.cursor) (hopened : opened.length + 1 = start.depth) :
    Follows last ⟨opened, .arrayOpening⟩ (readArray readInner) start fun type stop _ =>
      stop = ⟨opened, .afterType type⟩ := by
  have hopen : advance? limit ⟨opened, .arrayOpening⟩ .less = some ⟨.array :: opened, .type⟩ := rfl
  refine (follows_expect hlast hend hopen (fun _ => rfl) fun hopening =>
    ⟨advance?_arrayOpening hopening, rfl⟩).bind fun _ _ after hstop => ?_
  obtain ⟨hprogress, rfl⟩ := hstop
  have hlt := hprogress.cursor_lt () rfl
  have hdepth : (Frame.array :: opened).length = after.depth := hopened.trans hprogress.depth_eq.symm
  refine (hinner after (by omega) _ hdepth).bind fun element _ behind hread => ?_
  rw [hread]
  have hclose : advance? limit ⟨.array :: opened, .afterType element⟩ .greater =
      some ⟨opened, .afterType (.array element)⟩ := rfl
  refine (follows_expect hlast hend hclose nofun fun hclosing =>
    ⟨advance?_afterElement hclosing, rfl⟩).bind fun _ _ _ hstop => ?_
  exact follows_pure hstop.2

theorem follows_readField {fields : List StructField} (hplace : place ≤ start.cursor)
    (hopened : opened.length + 1 = start.depth)
    (hfirst : fields = [] → start.current.lexeme ≠ .greater) :
    Follows last ⟨opened, .fieldName fields⟩ (readField readInner) start fun read =>
      AfterItem ⟨opened, .fieldName (fields ++ [read.1])⟩
        ⟨.struct fields read.1.name :: opened, .afterType read.1.type⟩ read.2 := by
  refine returns_look_bind ?_
  split
  · rename_i hname
    refine follows_refuse hlast ?_ (fun _ => rfl) (if_neg fun hempty => hfirst hempty.1 hempty.2)
    exact congrArg (Option.map _) hname
  · rename_i name hname
    have hstep : advance? limit ⟨opened, .fieldName fields⟩ start.current.lexeme =
        some ⟨.struct fields name :: opened, .type⟩ := congrArg (Option.map _) hname
    refine (follows_advance hlast hend hstep).bind fun _ _ after hstop => ?_
    obtain ⟨hprogress, rfl⟩ := hstop
    have hlt := hprogress.cursor_lt () rfl
    have hdepth : (Frame.struct fields name :: opened).length = after.depth :=
      hopened.trans hprogress.depth_eq.symm
    refine (hinner after (by omega) _ hdepth).bind fun type _ behind hread => ?_
    rw [hread]
    refine (follows_stepOverComma hlast hend rfl).bind fun more stop _ hitem => ?_
    exact follows_pure hitem

theorem follows_readFields {fuel : Nat} (fields : List StructField)
    (hprogress : ∀ further : Position tokens limit, place < further.cursor →
      Progresses readInner further)
    (hplace : place ≤ start.cursor) (hfuel : tokens.length ≤ start.cursor + fuel)
    (hopened : opened.length + 1 = start.depth)
    (hfirst : fields = [] → start.current.lexeme ≠ .greater) :
    Follows last ⟨opened, .fieldName fields⟩ (readFields readInner fuel fields) start
      fun read stop after => after.current.lexeme ≠ .comma ∧
        ∃ done name type, read = done ++ [⟨name, type⟩] ∧
          stop = ⟨.struct done name :: opened, .afterType type⟩ := by
  have hstart := start.cursor_lt
  induction fuel generalizing start fields with
  | zero => omega
  | succ fuel ih =>
    refine ((follows_readField hlast hend hinner hplace hopened hfirst).progress
      (progresses_readField hlast hend hprogress hplace)).bind fun read stop after hread => ?_
    obtain ⟨hmoved, hitem⟩ := hread
    have hlt := hmoved.cursor_lt read rfl
    have hdepth := hmoved.depth_eq
    obtain ⟨⟨name, type⟩, more⟩ := read
    cases more with
    | true =>
      cases hitem
      exact ih (fields ++ [⟨name, type⟩]) (by omega) (by omega) (by omega) (by simp)
        after.cursor_lt
    | false =>
      cases hitem.1
      exact follows_pure ⟨hitem.2, fields, name, type, rfl, rfl⟩

theorem follows_readStruct {fuel : Nat}
    (hprogress : ∀ further : Position tokens limit, place < further.cursor →
      Progresses readInner further)
    (hplace : place ≤ start.cursor) (hfuel : tokens.length ≤ start.cursor + fuel)
    (hopened : opened.length + 1 = start.depth) :
    Follows last ⟨opened, .structOpening⟩ (readStruct readInner fuel) start fun type stop _ =>
      stop = ⟨opened, .afterType type⟩ := by
  have hopen : advance? limit ⟨opened, .structOpening⟩ .less = some ⟨opened, .fieldName []⟩ := rfl
  refine (follows_expect hlast hend hopen (fun _ => rfl) fun hopening =>
    ⟨advance?_structOpening hopening, rfl⟩).bind fun _ _ after hstop => ?_
  obtain ⟨hmoved, rfl⟩ := hstop
  have hle := hmoved.cursor_le
  have hdepth := hmoved.depth_eq
  refine returns_look_bind ?_
  split
  · rename_i hempty
    refine follows_refuse hlast ?_ (fun _ => rfl) (if_pos ⟨rfl, hempty⟩)
    rw [hempty]
    rfl
  · rename_i hempty
    refine (follows_readFields hlast hend hinner [] hprogress (by omega) (by omega) (by omega)
      fun _ => hempty).bind fun read _ behind hread => ?_
    obtain ⟨hcomma, done, name, type, rfl, rfl⟩ := hread
    have hclose : advance? limit ⟨.struct done name :: opened, .afterType type⟩ .greater =
        some ⟨opened, .afterType (.struct (done ++ [⟨name, type⟩]))⟩ := rfl
    refine (follows_expect hlast hend hclose nofun fun hclosing =>
      ⟨advance?_afterField hcomma hclosing, rfl⟩).bind fun _ _ _ hstop => ?_
    exact follows_pure hstop.2

end

section

variable {opened : List Frame} (hroom : ¬limit ≤ opened.length)

include hroom

theorem follows_readKind {fuel : Nat} {name : String}
    (hfuel : tokens.length ≤ start.cursor + fuel + 1)
    (hname : start.current.lexeme = .identifier name)
    (harray : ¬Text.equalIgnoringAsciiCase name "ARRAY" = true)
    (hstruct : ¬Text.equalIgnoringAsciiCase name "STRUCT" = true) :
    Follows last ⟨opened, .type⟩ (readKind fuel name) start fun type stop _ =>
      stop = ⟨opened, .afterType type⟩ := by
  have hadvance : advance? limit ⟨opened, .type⟩ start.current.lexeme =
      ((TypeKind.ofName? name).map .afterKind).map (⟨opened, ·⟩) := by
    rw [hname]
    refine (if_neg hroom).trans ?_
    rw [expectationOfName?, if_neg harray, if_neg hstruct]
  unfold readKind
  split
  · rename_i hkind
    rw [hkind] at hadvance
    refine follows_refuse hlast hadvance (fun _ => rfl) ?_
    rw [hname]
    exact if_neg hroom
  · rename_i kind hkind
    rw [hkind] at hadvance
    refine (follows_advance hlast hend hadvance).bind fun _ _ after hstop => ?_
    obtain ⟨hmoved, rfl⟩ := hstop
    have hlt := hmoved.cursor_lt () rfl
    refine (follows_readParameterList hlast hend (by omega)).bind fun _ _ _ hread => ?_
    exact follows_pure hread

theorem follows_readCounted {readInner : Reader tokens limit SqlType} {fuel : Nat}
    (hinner : ∀ further : Position tokens limit, start.cursor < further.cursor →
      ReadsType last readInner further)
    (hprogress : ∀ further : Position tokens limit, start.cursor < further.cursor →
      Progresses readInner further)
    (hfuel : tokens.length ≤ start.cursor + fuel + 1) (hopened : opened.length + 1 = start.depth) :
    Follows last ⟨opened, .type⟩ (readCounted readInner fuel) start fun type stop _ =>
      stop = ⟨opened, .afterType type⟩ := by
  refine returns_look_bind ?_
  split
  · rename_i name hname
    have hadvance : advance? limit ⟨opened, .type⟩ start.current.lexeme =
        (expectationOfName? name).map (⟨opened, ·⟩) := by
      rw [hname]
      exact if_neg hroom
    split
    · rename_i harray
      rw [expectationOfName?, if_pos harray] at hadvance
      refine (follows_advance hlast hend hadvance).bind fun _ _ after hstop => ?_
      obtain ⟨hmoved, rfl⟩ := hstop
      exact follows_readArray hlast hend hinner hmoved.cursor_le
        (hopened.trans hmoved.depth_eq.symm)
    · rename_i harray
      split
      · rename_i hstruct
        rw [expectationOfName?, if_neg harray, if_pos hstruct] at hadvance
        refine (follows_advance hlast hend hadvance).bind fun _ _ after hstop => ?_
        obtain ⟨hmoved, rfl⟩ := hstop
        have hlt := hmoved.cursor_lt () rfl
        exact follows_readStruct hlast hend hinner hprogress hmoved.cursor_le (by omega)
          (hopened.trans hmoved.depth_eq.symm)
      · rename_i hstruct
        exact follows_readKind hlast hend hroom hfuel hname harray hstruct
  · rename_i hlexeme
    refine follows_refuse hlast (advance?_of_not_name (by simp [hlexeme])) (fun _ => rfl) ?_
    rw [hlexeme]
    exact if_neg hroom
  · rename_i hlexeme
    refine follows_refuse hlast (advance?_of_not_name (by simp [hlexeme])) (fun _ => rfl) ?_
    rw [hlexeme]
    exact if_neg hroom
  · rename_i hname hillegal hfinal
    refine follows_refuse hlast (advance?_of_not_name hname) (fun _ => rfl) ((if_neg hroom).trans ?_)
    split
    · exact absurd ‹_› (hname _)
    · exact absurd ‹_› (hillegal _)
    · exact absurd ‹_› hfinal
    · rfl

end

-- The limit refuses a type to both readers at once.
theorem readsType {fuel : Nat} (hfuel : tokens.length ≤ start.cursor + fuel) :
    ReadsType last (readType fuel) start := by
  have hstart := start.cursor_lt
  induction fuel generalizing start with
  | zero => omega
  | succ fuel ih =>
    intro opened hopened
    refine returns_readType (fun hfull => ?_) fun hroom => ?_
    · have hblocked : State.Blocked limit ⟨opened, .type⟩ := ⟨rfl, hopened ▸ hfull⟩
      refine (follow_of_refused hlast (advance?_of_blocked hblocked _) fun _ => rfl).trans ?_
      rw [faultAt, refusalReason_of_blocked hblocked]
    · have hprogress (further : Position tokens limit) (hlt : start.cursor < further.cursor) :
          Progresses (readType fuel) further := progresses_readType hlast hend (by omega)
      have hfollows : Follows last ⟨opened, .type⟩ (readCounted (readType fuel) fuel)
          (start.deeper hroom) fun type stop _ => stop = ⟨opened, .afterType type⟩ := by
        refine follows_readCounted hlast hend (by omega) (fun further hfurther => ?_) hprogress
          hfuel (congrArg (· + 1) hopened)
        have hlt : start.cursor < further.cursor := hfurther
        exact ih (by omega) further.cursor_lt
      refine (Returns.and hfollows (progresses_readCounted hlast hend hprogress hfuel)).mono
        fun outcome inside hboth => ?_
      obtain ⟨hagrees, hmoved⟩ := hboth
      have hdepth : inside.depth = start.depth + 1 := hmoved.depth_eq
      refine ⟨by omega, ?_⟩
      cases outcome with
      | ok type => exact hagrees
      | error fault => exact hagrees

/-! ## Whole inputs -/

theorem returns_readWhole {fuel : Nat} (start : Position tokens limit)
    (hfuel : tokens.length ≤ start.cursor + fuel) (hdepth : start.depth = 0)
    (hbefore : ∀ token ∈ tokens.dropLast, token.lexeme ≠ .endOfInput) :
    Returns (readWhole fuel) start fun outcome _ => outcome = follow limit .start last start.rest := by
  refine Returns.bind (readsType hlast hend hfuel [] hdepth.symm) (fun type after hagrees => ?_)
    fun _ _ hagrees => Eq.symm hagrees
  obtain ⟨stop, rfl, hfollow⟩ := hagrees
  rw [State.start, hfollow]
  refine returns_look_bind ?_
  rcases Position.rest_cases hlast after with ⟨hrest, hcurrent⟩ | hrest
  · rw [if_pos (hcurrent ▸ hend), hrest]
    exact returns_pure rfl
  · have hmem : after.current ∈ tokens.dropLast :=
      List.mem_of_mem_drop (hrest ▸ List.mem_cons_self : after.current ∈ after.rest)
    have hclose : advance? limit ⟨[], .afterType type⟩ after.current.lexeme = none := by
      cases after.current.lexeme <;> rfl
    rw [if_neg (hbefore _ hmem), hrest, follow, hclose]
    exact returns_refuse rfl

end

/-- **Reading by descent is reading token by token.** As much fuel as there are tokens is enough for a
result, and this is the type or the error that the other reader gives. -/
theorem descend_eq_parseWithin {fuel : Nat} (limit : Nat) (input : String)
    (hfuel : (Token.tokenize input).length ≤ fuel) :
    descend fuel limit input = some (SqlType.parseWithin limit input) := by
  rw [parseWithin_eq_verdict, descend, verdict]
  cases hbalanced : Brackets.balanced (Token.list input) with
  | ok matched =>
    have hlast : (Token.tokenize input).getLast? = some (Token.atEnd input) :=
      List.getLast?_concat
    have hdrop : (Token.tokenize input).dropLast = Token.list input := List.dropLast_concat
    obtain ⟨outcome, after, hrun, houtcome⟩ :=
      returns_readWhole hlast rfl (Position.start limit input)
        (Nat.le_trans hfuel (Nat.le_add_left _ _)) rfl fun token hmem =>
          Token.lexeme_ne_endOfInput (hdrop ▸ hmem)
    dsimp only
    rw [hrun, houtcome, Position.rest, hdrop]
    rfl
  | error mismatch =>
    obtain ⟨-, -, hrest⟩ := Brackets.mem_of_balanced_error hbalanced
    exact congrArg (fun error => some (Except.error error)) (if_pos hrest).symm

end SchemaCatalog.Parser.Descent
