import SchemaCatalog.Proofs.SqlType.Respelling

/-!
# Reading by descent

Types can also be read by functions that call each other as the grammar has it, with a cursor on the
tokens and a count of the types that are begun.  Nothing in their form says that they come to an end:
a cursor on the last token stays there, the loops go on at every comma, and the limit may be too large
to bound anything.  So a reader is given fuel, which bounds how deeply its calls nest and how often its
loops turn, and it has no result where the fuel is not enough.  More fuel does not change a result;
a reader comes to an end if it has one under some fuel.  There is no result either where a count would
leave its range.  On whole inputs `descend` gives what the reader of single tokens gives.
-/

namespace SchemaCatalog.Parser.Descent

/-! ## Positions -/

/-- Where a reader stands: on one of the tokens, with so many types begun and not complete. -/
structure Position (tokens : List Token) (limit : Nat) where
  cursor : Nat
  depth : Nat
  cursor_lt : cursor < tokens.length
  depth_le : depth ≤ limit

variable {tokens : List Token} {limit : Nat}

namespace Position

/-- The token under the cursor. -/
def current (position : Position tokens limit) : Token :=
  tokens.get ⟨position.cursor, position.cursor_lt⟩

/-- One token further; on the last token the cursor stays. -/
def advance (position : Position tokens limit) : Position tokens limit :=
  if hnext : position.cursor + 1 < tokens.length then
    { position with cursor := position.cursor + 1, cursor_lt := hnext }
  else position

/-- One type deeper, where the limit leaves room. -/
def deeper (position : Position tokens limit) (hroom : position.depth < limit) :
    Position tokens limit :=
  { position with depth := position.depth + 1, depth_le := hroom }

/-- One type deeper.  There is no such position beyond the limit, so none beyond the largest machine
word. -/
def enter? (position : Position tokens limit) : Option (Position tokens limit) :=
  if hroom : position.depth < limit then some (position.deeper hroom) else none

/-- One type less deep, where a type is begun. -/
def shallower (position : Position tokens limit) : Position tokens limit :=
  { position with
    depth := position.depth - 1, depth_le := Nat.le_trans (Nat.sub_le _ 1) position.depth_le }

/-- One type less deep.  There is no such position outside all types. -/
def leave? (position : Position tokens limit) : Option (Position tokens limit) :=
  if position.depth = 0 then none else some position.shallower

theorem current_of_last {last : Token} (hlast : tokens.getLast? = some last)
    {position : Position tokens limit} (hnext : ¬position.cursor + 1 < tokens.length) :
    position.current = last := by
  have hcursor : tokens.length - 1 = position.cursor := by
    have := position.cursor_lt
    omega
  rw [List.getLast?_eq_getElem?, hcursor, List.getElem?_eq_getElem position.cursor_lt] at hlast
  exact Option.some.inj hlast

end Position

/-! ## Readers -/

/-- A reader moves a position and ends with a value or a fault.  The position outlives a fault. -/
abbrev Reader (tokens : List Token) (limit : Nat) :=
  ExceptT Fault (StateT (Position tokens limit) Option)

/-- The lexeme under the cursor. -/
def look : Reader tokens limit Lexeme :=
  return (← get).current.lexeme

def advance : Reader tokens limit Unit :=
  modify Position.advance

/-- Counts a type that begins. -/
def enter : StateT (Position tokens limit) Option Unit := do
  set (← (← get).enter?)

/-- Takes back the count of a type. -/
def leave : StateT (Position tokens limit) Option Unit := do
  set (← (← get).leave?)

/-- Ends with a fault of the token under the cursor. -/
def refuse {α : Type} (reason : ParseReason) : Reader tokens limit α := do
  throw ⟨reason, (← get).current⟩

/-- No result. -/
def exhausted {α : Type} : Reader tokens limit α :=
  ExceptT.lift (StateT.lift none)

/-- Steps over a lexeme that has to stand here. -/
def expect (wanted : Wanted) (lexeme : Lexeme) : Reader tokens limit Unit := do
  let found ← look
  if found = lexeme then advance else refuse (.expected wanted found)

/-- Steps over a comma, if there is one; another item has to follow it. -/
def stepOverComma : Reader tokens limit Bool := do
  if (← look) = .comma then
    advance
    return true
  else return false

/-- One round of the loop over parameters; the loop goes on after a comma. -/
def readParameter : Reader tokens limit Bool := do
  if (← look).isParameter then
    advance
    stepOverComma
  else refuse .malformedParameters

/-- The loop over parameters, for as many rounds as there is fuel. -/
def readParameters : Nat → Reader tokens limit Unit
  | 0 => exhausted
  | fuel + 1 => do
    if ← readParameter then readParameters fuel
    else return ()

/-- Parameters in parentheses, if there are any. -/
def readParameterList (fuel : Nat) : Reader tokens limit Unit := do
  if (← look) = .leftParen then
    advance
    readParameters fuel
    expect .parametersClosing .rightParen
  else return ()

/-- The kind that a name stands for, with its parameters. -/
def readKind (fuel : Nat) (name : String) : Reader tokens limit SqlType := do
  match TypeKind.ofName? name with
  | none => refuse .unknownType
  | some kind =>
    advance
    readParameterList fuel
    return .simple kind

section

-- The reader of the types inside a type.
variable (readInner : Reader tokens limit SqlType)

/-- What follows ARRAY. -/
def readArray : Reader tokens limit SqlType := do
  expect .arrayOpening .less
  let element ← readInner
  expect .arrayClosing .greater
  return .array element

/-- One round of the loop over fields; the loop goes on after a comma. -/
def readField : Reader tokens limit (StructField × Bool) := do
  let found ← look
  match found.fieldName? with
  | none => refuse (.expected .fieldName found)
  | some name =>
    advance
    let type ← readInner
    let more ← stepOverComma
    return (⟨name, type⟩, more)

/-- The loop over fields, after those that are complete, for as many rounds as there is fuel. -/
def readFields : Nat → List StructField → Reader tokens limit (List StructField)
  | 0, _ => exhausted
  | fuel + 1, fields => do
    let (field, more) ← readField readInner
    if more then readFields fuel (fields ++ [field])
    else return fields ++ [field]

/-- What follows STRUCT. -/
def readStruct (fuel : Nat) : Reader tokens limit SqlType := do
  expect .structOpening .less
  if (← look) = .greater then refuse .emptyStruct
  else
    let fields ← readFields readInner fuel []
    expect .structContinuation .greater
    return .struct fields

/-- A type that is counted. -/
def readCounted (fuel : Nat) : Reader tokens limit SqlType := do
  match ← look with
  | .identifier name =>
    if Text.equalIgnoringAsciiCase name "ARRAY" then
      advance
      readArray readInner
    else if Text.equalIgnoringAsciiCase name "STRUCT" then
      advance
      readStruct readInner fuel
    else readKind fuel name
  | .illegal _ => refuse .illegalCharacter
  | .endOfInput => refuse .unexpectedEnd
  | found => refuse (.expected .type found)

end

/-- Counts a type as begun until its reader ends, with a value or with a fault. -/
def counted {α : Type} (reader : Reader tokens limit α) : Reader tokens limit α :=
  ExceptT.mk do
    enter
    let outcome ← reader.run
    leave
    return outcome

/-- A type, with calls nested as deeply as there is fuel. -/
def readType : Nat → Reader tokens limit SqlType
  | 0 => exhausted
  | fuel + 1 => do
    if limit ≤ (← get).depth then refuse (.tooDeep limit)
    else counted (readCounted (readType fuel) fuel)

/-- A type with nothing after it. -/
def readWhole (fuel : Nat) : Reader tokens limit SqlType := do
  let type ← readType fuel
  if (← look) = .endOfInput then return type
  else refuse .trailingInput

/-- The first token of an input, with no type begun. -/
def Position.start (limit : Nat) (input : String) : Position (Token.tokenize input) limit where
  cursor := 0
  depth := 0
  cursor_lt := List.length_pos_of_mem (List.mem_append_right _ (List.mem_singleton_self _))
  depth_le := Nat.zero_le limit

/-- Reads an input by descent, after its brackets have been matched. -/
def descend (fuel limit : Nat) (input : String) : Option (Except ParseError SqlType) :=
  match Brackets.balanced (Token.list input) with
  | .ok () =>
    ((readWhole fuel).run.run (.start limit input)).map fun result =>
      result.1.mapError (Fault.cite input)
  | .error mismatch => some (.error (.fromToken input mismatch.token mismatch.reason))

/-! ## What a reader returns -/

variable {α β : Type} {start : Position tokens limit}

/-- From a position a reader has a result, and it meets the condition. -/
def Returns (reader : Reader tokens limit α) (start : Position tokens limit)
    (post : Except Fault α → Position tokens limit → Prop) : Prop :=
  ∃ outcome after, reader.run.run start = some (outcome, after) ∧ post outcome after

section

variable {post mid : Except Fault α → Position tokens limit → Prop}
  {final : Except Fault β → Position tokens limit → Prop} {reader : Reader tokens limit α}
  {next : α → Reader tokens limit β}

theorem Returns.mono (h : Returns reader start mid)
    (himp : ∀ outcome after, mid outcome after → post outcome after) :
    Returns reader start post := by
  obtain ⟨outcome, after, hrun, hmid⟩ := h
  exact ⟨outcome, after, hrun, himp outcome after hmid⟩

-- A reader has one result, so what is shown of it twice holds of the same result.
theorem Returns.and (h : Returns reader start post) (hmid : Returns reader start mid) :
    Returns reader start fun outcome after => post outcome after ∧ mid outcome after := by
  obtain ⟨outcome, after, hrun, hpost⟩ := h
  obtain ⟨same, place, hsame, hmid⟩ := hmid
  cases hrun.symm.trans hsame
  exact ⟨outcome, after, hrun, hpost, hmid⟩

theorem returns_pure {value : α} (h : post (.ok value) start) :
    Returns (pure value) start post :=
  ⟨.ok value, start, rfl, h⟩

theorem returns_refuse {reason : ParseReason}
    (h : post (.error ⟨reason, start.current⟩) start) : Returns (refuse reason) start post :=
  ⟨.error ⟨reason, start.current⟩, start, rfl, h⟩

theorem returns_advance {post : Except Fault Unit → Position tokens limit → Prop}
    (h : post (.ok ()) start.advance) : Returns advance start post :=
  ⟨.ok (), start.advance, rfl, h⟩

-- What follows a value starts where its reader ended; a fault ends the whole.
theorem Returns.bind (h : Returns reader start mid)
    (hok : ∀ value after, mid (.ok value) after → Returns (next value) after final)
    (herror : ∀ fault after, mid (.error fault) after → final (.error fault) after) :
    Returns (reader >>= next) start final := by
  obtain ⟨outcome, after, hrun, hmid⟩ := h
  have hbind : (reader >>= next).run.run start =
      (reader.run.run start).bind fun result =>
        (ExceptT.bindCont next result.1).run result.2 := rfl
  rw [hrun] at hbind
  cases outcome with
  | ok value =>
    obtain ⟨result, behind, hnext, hfinal⟩ := hok value after hmid
    exact ⟨result, behind, hbind.trans hnext, hfinal⟩
  | error fault => exact ⟨.error fault, after, hbind, herror fault after hmid⟩

theorem returns_look_bind {next : Lexeme → Reader tokens limit β}
    (h : Returns (next start.current.lexeme) start final) : Returns (look >>= next) start final :=
  h

theorem returns_get_bind {next : Position tokens limit → Reader tokens limit β}
    (h : Returns (next start) start final) : Returns (get >>= next) start final :=
  h

end

/-! ## The depth of a type -/

theorem enter_run (hroom : start.depth < limit) :
    enter.run start = some ((), start.deeper hroom) := by
  simp [enter, Position.enter?, hroom]

theorem leave_run (hdepth : start.depth ≠ 0) :
    leave.run start = some ((), start.shallower) := by
  simp [leave, Position.leave?, hdepth]

-- The depth is counted up for what is inside, and down again after it.
theorem returns_counted {reader : Reader tokens limit α}
    {post : Except Fault α → Position tokens limit → Prop} (hroom : start.depth < limit)
    (h : Returns reader (start.deeper hroom) fun outcome inside =>
      inside.depth ≠ 0 ∧ post outcome inside.shallower) :
    Returns (counted reader) start post := by
  obtain ⟨outcome, inside, hrun, hdepth, hpost⟩ := h
  refine ⟨outcome, inside.shallower, ?_, hpost⟩
  have hcounted : (counted reader).run.run start =
      (enter.run start).bind fun entered =>
        (reader.run.run entered.2).bind fun result =>
          (leave.run result.2).bind fun left => some (result.1, left.2) := rfl
  rw [hcounted, enter_run hroom, Option.bind_some, hrun, Option.bind_some, leave_run hdepth]
  rfl

theorem returns_readType {fuel : Nat} {post : Except Fault SqlType → Position tokens limit → Prop}
    (hfull : limit ≤ start.depth → post (.error ⟨.tooDeep limit, start.current⟩) start)
    (hcounted : ∀ hroom : start.depth < limit,
      Returns (readCounted (readType fuel) fuel) (start.deeper hroom) fun outcome inside =>
        inside.depth ≠ 0 ∧ post outcome inside.shallower) :
    Returns (readType (fuel + 1)) start post := by
  refine returns_get_bind ?_
  split
  · rename_i hle
    exact returns_refuse (hfull hle)
  · rename_i hle
    have hroom : start.depth < limit := Nat.not_le.mp hle
    exact returns_counted hroom (hcounted hroom)

/-! ## More fuel -/

/-- Where a reader has a result, another one has the same. -/
def Extends (reader more : Reader tokens limit α) : Prop :=
  ∀ start result, reader.run.run start = some result → more.run.run start = some result

theorem Extends.refl (reader : Reader tokens limit α) : Extends reader reader :=
  fun _ _ h => h

theorem extends_exhausted (reader : Reader tokens limit α) : Extends exhausted reader := by
  intro start result hrun
  have hnone : (exhausted : Reader tokens limit α).run.run start = none := rfl
  rw [hnone] at hrun
  cases hrun

theorem Extends.bind {reader more : Reader tokens limit α} {next further : α → Reader tokens limit β}
    (h : Extends reader more) (hnext : ∀ value, Extends (next value) (further value)) :
    Extends (reader >>= next) (more >>= further) := by
  intro start result hrun
  obtain ⟨⟨outcome, after⟩, hreader, hbind⟩ := Option.bind_eq_some_iff.mp hrun
  refine Option.bind_eq_some_iff.mpr ⟨(outcome, after), h start _ hreader, ?_⟩
  cases outcome with
  | ok value => exact hnext value after result hbind
  | error fault => exact hbind

theorem Extends.ite {condition : Prop} [Decidable condition]
    {reader more other further : Reader tokens limit α} (h : Extends reader more)
    (hother : Extends other further) :
    Extends (if condition then reader else other) (if condition then more else further) := by
  split
  · exact h
  · exact hother

theorem Extends.counted {reader more : Reader tokens limit α} (h : Extends reader more) :
    Extends (counted reader) (counted more) := by
  intro start result hrun
  obtain ⟨entered, henter, hinside⟩ := Option.bind_eq_some_iff.mp hrun
  obtain ⟨inside, hreader, hleave⟩ := Option.bind_eq_some_iff.mp hinside
  exact Option.bind_eq_some_iff.mpr ⟨entered, henter,
    Option.bind_eq_some_iff.mpr ⟨inside, h entered.2 inside hreader, hleave⟩⟩

theorem extends_readParameters (fuel : Nat) :
    Extends (readParameters fuel : Reader tokens limit Unit) (readParameters (fuel + 1)) := by
  induction fuel with
  | zero => exact extends_exhausted _
  | succ fuel ih => exact (Extends.refl readParameter).bind fun _ => ih.ite (.refl _)

theorem extends_readKind (fuel : Nat) (name : String) :
    Extends (readKind fuel name : Reader tokens limit SqlType) (readKind (fuel + 1) name) := by
  unfold readKind
  split
  · exact .refl _
  · refine (Extends.refl advance).bind fun _ => Extends.bind ?_ fun _ => .refl _
    refine (Extends.refl look).bind fun _ => Extends.ite ?_ (.refl _)
    refine (Extends.refl advance).bind fun _ => ?_
    exact (extends_readParameters fuel).bind fun _ => .refl _

section

variable {readInner readMore : Reader tokens limit SqlType} (h : Extends readInner readMore)

include h

theorem extends_readArray : Extends (readArray readInner) (readArray readMore) :=
  (Extends.refl _).bind fun _ => h.bind fun _ => .refl _

theorem extends_readField : Extends (readField readInner) (readField readMore) := by
  refine (Extends.refl look).bind fun found => ?_
  split
  · exact .refl _
  · exact (Extends.refl advance).bind fun _ => h.bind fun _ => .refl _

theorem extends_readFields (fuel : Nat) (fields : List StructField) :
    Extends (readFields readInner fuel fields) (readFields readMore (fuel + 1) fields) := by
  induction fuel generalizing fields with
  | zero => exact extends_exhausted _
  | succ fuel ih => exact (extends_readField h).bind fun _ => (ih _).ite (.refl _)

theorem extends_readStruct (fuel : Nat) :
    Extends (readStruct readInner fuel) (readStruct readMore (fuel + 1)) := by
  refine (Extends.refl _).bind fun _ => (Extends.refl look).bind fun _ => ?_
  exact (Extends.refl _).ite ((extends_readFields h fuel []).bind fun _ => .refl _)

theorem extends_readCounted (fuel : Nat) :
    Extends (readCounted readInner fuel) (readCounted readMore (fuel + 1)) := by
  refine (Extends.refl look).bind fun found => ?_
  split
  · exact ((Extends.refl advance).bind fun _ => extends_readArray h).ite
      (((Extends.refl advance).bind fun _ => extends_readStruct h fuel).ite
        (extends_readKind fuel _))
  all_goals exact .refl _

end

theorem extends_readType (fuel : Nat) :
    Extends (readType fuel : Reader tokens limit SqlType) (readType (fuel + 1)) := by
  induction fuel with
  | zero => exact extends_exhausted _
  | succ fuel ih =>
    exact (Extends.refl get).bind fun _ => (Extends.refl _).ite (extends_readCounted ih fuel).counted

/-- From some fuel on a reader has one and the same result, and it meets the condition. -/
def Ends (reader : Nat → Reader tokens limit α) (start : Position tokens limit)
    (post : Except Fault α → Position tokens limit → Prop) : Prop :=
  ∃ outcome after enough, post outcome after ∧
    ∀ fuel, enough ≤ fuel → (reader fuel).run.run start = some (outcome, after)

theorem Returns.ends {reader : Nat → Reader tokens limit α} {enough : Nat}
    {post : Except Fault α → Position tokens limit → Prop}
    (h : Returns (reader enough) start post)
    (hextends : ∀ fuel, Extends (reader fuel) (reader (fuel + 1))) : Ends reader start post := by
  obtain ⟨outcome, after, hrun, hpost⟩ := h
  refine ⟨outcome, after, enough, hpost, fun fuel hle => ?_⟩
  induction hle with
  | refl => exact hrun
  | step hle ih => exact hextends _ start _ ih

end SchemaCatalog.Parser.Descent
