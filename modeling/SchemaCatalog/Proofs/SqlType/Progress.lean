import SchemaCatalog.Proofs.SqlType.Descent

/-!
# Progress of readers

No reader goes back, and none is at another depth in the end than it began at.  A reader that gives a
type, a field or a parameter has taken at least one token for it: it has looked at a token that is not
the end of the input, and only on the end does the cursor stay where it is.  So the loops and the
functions that call each other have fewer tokens before them at every turn, and they come to an end.
-/

namespace SchemaCatalog.Parser.Descent

variable {tokens : List Token} {limit : Nat} {α β : Type} {start : Position tokens limit}

/-! ## Movement -/

/-- A position of the same depth that is not before another. -/
structure Position.Reaches (start after : Position tokens limit) : Prop where
  depth_eq : after.depth = start.depth
  cursor_le : start.cursor ≤ after.cursor

theorem Position.Reaches.refl (start : Position tokens limit) : start.Reaches start :=
  ⟨rfl, Nat.le_refl _⟩

theorem Position.Reaches.trans {start middle after : Position tokens limit}
    (h : start.Reaches middle) (hafter : middle.Reaches after) : start.Reaches after :=
  ⟨hafter.depth_eq.trans h.depth_eq, Nat.le_trans h.cursor_le hafter.cursor_le⟩

/-- What a reader of at least one token does to the position: the depth is what it was, the cursor
has not gone back, and it has gone on if there is a value. -/
structure Progress (start : Position tokens limit) (outcome : Except Fault α)
    (after : Position tokens limit) : Prop extends start.Reaches after where
  cursor_lt : ∀ value, outcome = .ok value → start.cursor < after.cursor

/-- The reader returns, at the depth at which it began and not before. -/
def Stays (reader : Reader tokens limit α) (start : Position tokens limit) : Prop :=
  Returns reader start fun _ after => start.Reaches after

/-- The reader returns, and a value took at least one token. -/
def Progresses (reader : Reader tokens limit α) (start : Position tokens limit) : Prop :=
  Returns reader start (Progress start)

section

variable {reader : Reader tokens limit α} {next : α → Reader tokens limit β}

theorem Progresses.stays (h : Progresses reader start) : Stays reader start :=
  h.mono fun _ _ hprogress => hprogress.toReaches

theorem stays_pure (value : α) : Stays (pure value) start :=
  returns_pure (.refl start)

theorem progresses_refuse (reason : ParseReason) :
    Progresses (refuse reason : Reader tokens limit α) start :=
  returns_refuse ⟨.refl start, nofun⟩

theorem Stays.bind (h : Stays reader start)
    (hnext : ∀ value after, start.Reaches after → Stays (next value) after) :
    Stays (reader >>= next) start :=
  Returns.bind h
    (fun value after hreaches =>
      (hnext value after hreaches).mono fun _ _ hafter => hreaches.trans hafter)
    fun _ _ hreaches => hreaches

-- After one token any reader may follow.
theorem Progresses.bind (h : Progresses reader start)
    (hnext : ∀ value after, Progress start (.ok value) after → Stays (next value) after) :
    Progresses (reader >>= next) start :=
  Returns.bind h
    (fun value after hprogress =>
      (hnext value after hprogress).mono fun _ _ hafter =>
        ⟨hprogress.toReaches.trans hafter,
          fun _ _ => Nat.lt_of_lt_of_le (hprogress.cursor_lt value rfl) hafter.cursor_le⟩)
    fun _ _ hprogress => ⟨hprogress.toReaches, nofun⟩

end

theorem reaches_advance (start : Position tokens limit) : start.Reaches start.advance := by
  unfold Position.advance
  split
  · exact ⟨rfl, Nat.le_succ _⟩
  · exact .refl start

theorem stays_advance (start : Position tokens limit) : Stays advance start :=
  returns_advance (reaches_advance start)

theorem stays_stepOverComma (start : Position tokens limit) : Stays stepOverComma start := by
  refine returns_look_bind ?_
  split
  · exact (stays_advance start).bind fun _ _ _ => stays_pure true
  · exact stays_pure false

/-! ## Progress -/

section

variable {last : Token} (hlast : tokens.getLast? = some last) (hend : last.lexeme = .endOfInput)

include hlast hend

-- The cursor only stays where it is on the last token, and that token is the end.
theorem progress_advance (hne : start.current.lexeme ≠ .endOfInput) :
    Progress start (.ok ()) start.advance := by
  refine ⟨reaches_advance start, fun _ _ => ?_⟩
  unfold Position.advance
  split
  · exact Nat.lt_succ_self _
  · rename_i hnext
    exact absurd (Position.current_of_last hlast hnext ▸ hend) hne

theorem progresses_advance (hne : start.current.lexeme ≠ .endOfInput) :
    Progresses advance start :=
  returns_advance (progress_advance hlast hend hne)

theorem progresses_expect {wanted : Wanted} {lexeme : Lexeme} (hne : lexeme ≠ .endOfInput) :
    Progresses (expect wanted lexeme) start := by
  refine returns_look_bind ?_
  split
  · rename_i hfound
    exact progresses_advance hlast hend (hfound ▸ hne)
  · exact progresses_refuse _

theorem progresses_readParameter (start : Position tokens limit) :
    Progresses readParameter start := by
  refine returns_look_bind ?_
  split
  · rename_i hparameter
    -- the end of the input is no parameter
    have hne : start.current.lexeme ≠ .endOfInput := by
      intro hlexeme
      rw [hlexeme] at hparameter
      cases hparameter
    exact (progresses_advance hlast hend hne).bind fun _ after _ => stays_stepOverComma after
  · exact progresses_refuse _

-- Every round but the last leaves fewer tokens for the rounds that follow.
theorem progresses_readParameters {fuel : Nat} (hfuel : tokens.length ≤ start.cursor + fuel) :
    Progresses (readParameters fuel) start := by
  have hstart := start.cursor_lt
  induction fuel generalizing start with
  | zero => omega
  | succ fuel ih =>
    refine (progresses_readParameter hlast hend start).bind fun more after hprogress => ?_
    have hlt := hprogress.cursor_lt more rfl
    split
    · exact (ih (by omega) after.cursor_lt).stays
    · exact stays_pure ()

theorem stays_readParameterList {fuel : Nat} (hfuel : tokens.length ≤ start.cursor + fuel) :
    Stays (readParameterList fuel) start := by
  refine returns_look_bind ?_
  split
  · refine (stays_advance start).bind fun _ after hreaches => ?_
    have hle := hreaches.cursor_le
    refine (progresses_readParameters hlast hend (by omega)).stays.bind fun _ _ _ => ?_
    exact (progresses_expect hlast hend (by nofun)).stays
  · exact stays_pure ()

theorem progresses_readKind {fuel : Nat} {name : String}
    (hname : start.current.lexeme = .identifier name)
    (hfuel : tokens.length ≤ start.cursor + fuel + 1) : Progresses (readKind fuel name) start := by
  have hne : start.current.lexeme ≠ .endOfInput := by
    rw [hname]
    nofun
  unfold readKind
  split
  · exact progresses_refuse _
  · refine (progresses_advance hlast hend hne).bind fun _ after hadvance => ?_
    have hlt := hadvance.cursor_lt () rfl
    exact (stays_readParameterList hlast hend (by omega)).bind fun _ _ _ => stays_pure _

section

-- The types inside begin further on than some place, and there their reader is known to progress.
variable {readInner : Reader tokens limit SqlType} {place : Nat}
  (hinner : ∀ further : Position tokens limit, place < further.cursor →
    Progresses readInner further)

include hinner

theorem progresses_readArray (hplace : place ≤ start.cursor) :
    Progresses (readArray readInner) start := by
  refine (progresses_expect hlast hend (by nofun)).bind fun _ after hopening => ?_
  have hlt := hopening.cursor_lt () rfl
  refine (hinner after (by omega)).stays.bind fun _ behind _ => ?_
  refine (progresses_expect hlast hend (by nofun)).stays.bind fun _ _ _ => ?_
  exact stays_pure _

theorem progresses_readField (hplace : place ≤ start.cursor) :
    Progresses (readField readInner) start := by
  refine returns_look_bind ?_
  split
  · exact progresses_refuse _
  · rename_i hname
    have hne : start.current.lexeme ≠ .endOfInput := by
      intro hlexeme
      rw [hlexeme] at hname
      cases hname
    refine (progresses_advance hlast hend hne).bind fun _ after hadvance => ?_
    have hlt := hadvance.cursor_lt () rfl
    refine (hinner after (by omega)).stays.bind fun _ behind _ => ?_
    exact (stays_stepOverComma behind).bind fun _ _ _ => stays_pure _

-- As with parameters, every round leaves fewer tokens.
theorem progresses_readFields {fuel : Nat} (fields : List StructField)
    (hplace : place ≤ start.cursor) (hfuel : tokens.length ≤ start.cursor + fuel) :
    Progresses (readFields readInner fuel fields) start := by
  have hstart := start.cursor_lt
  induction fuel generalizing start fields with
  | zero => omega
  | succ fuel ih =>
    refine (progresses_readField hlast hend hinner hplace).bind fun read after hprogress => ?_
    have hlt := hprogress.cursor_lt read rfl
    obtain ⟨field, more⟩ := read
    dsimp only
    split
    · exact (ih (fields ++ [field]) (by omega) (by omega) after.cursor_lt).stays
    · exact stays_pure _

theorem progresses_readStruct {fuel : Nat} (hplace : place ≤ start.cursor)
    (hfuel : tokens.length ≤ start.cursor + fuel) :
    Progresses (readStruct readInner fuel) start := by
  refine (progresses_expect hlast hend (by nofun)).bind fun _ after hopening => ?_
  have hle := hopening.cursor_le
  refine returns_look_bind ?_
  split
  · exact (progresses_refuse _).stays
  · refine (progresses_readFields hlast hend hinner [] (by omega) (by omega)).stays.bind
      fun _ behind _ => ?_
    refine (progresses_expect hlast hend (by nofun)).stays.bind fun _ _ _ => ?_
    exact stays_pure _

end

theorem progresses_readCounted {readInner : Reader tokens limit SqlType} {fuel : Nat}
    (hinner : ∀ further : Position tokens limit, start.cursor < further.cursor →
      Progresses readInner further)
    (hfuel : tokens.length ≤ start.cursor + fuel + 1) :
    Progresses (readCounted readInner fuel) start := by
  refine returns_look_bind ?_
  split
  · rename_i name hname
    have hne : start.current.lexeme ≠ .endOfInput := by
      rw [hname]
      nofun
    split
    · refine (progresses_advance hlast hend hne).bind fun _ after hadvance => ?_
      exact (progresses_readArray hlast hend hinner hadvance.cursor_le).stays
    · split
      · refine (progresses_advance hlast hend hne).bind fun _ after hadvance => ?_
        have hlt := hadvance.cursor_lt () rfl
        exact (progresses_readStruct hlast hend hinner hadvance.cursor_le (by omega)).stays
      · exact progresses_readKind hlast hend hname hfuel
  all_goals exact progresses_refuse _

-- What is inside a type ends at its depth, so taking back the count gives the depth before the type.
theorem progresses_readType {fuel : Nat} (hfuel : tokens.length ≤ start.cursor + fuel) :
    Progresses (readType fuel) start := by
  have hstart := start.cursor_lt
  induction fuel generalizing start with
  | zero => omega
  | succ fuel ih =>
    refine returns_readType (fun _ => ⟨.refl start, nofun⟩) fun hroom => ?_
    have hcounted : Progresses (readCounted (readType fuel) fuel) (start.deeper hroom) := by
      refine progresses_readCounted hlast hend (fun further hfurther => ?_) hfuel
      have hlt : start.cursor < further.cursor := hfurther
      exact ih (by omega) further.cursor_lt
    refine hcounted.mono fun outcome inside hprogress => ?_
    have hdepth : inside.depth = start.depth + 1 := hprogress.depth_eq
    exact ⟨by omega, ⟨congrArg (· - 1) hdepth, hprogress.cursor_le⟩, hprogress.cursor_lt⟩

end

/-- **Reading comes to an end, and it only moves forwards.** Whatever the tokens before the end of the
input are, from every position the readers of a type, of a field and of a parameter come to an end: at
the depth at which they began, not before the token at which they began, and behind it if they have a
value.  So a loop that goes on after a field or a parameter has fewer tokens before it.  All the while
the cursor is on a token, and the depth neither passes the limit nor goes below zero. -/
theorem reading_progresses {last : Token} (hlast : tokens.getLast? = some last)
    (hend : last.lexeme = .endOfInput) (start : Position tokens limit) :
    Ends readType start (Progress start) ∧
      Ends (fun fuel => readField (readType fuel)) start (Progress start) ∧
      Progresses readParameter start := by
  have hfuel (further : Position tokens limit) :
      tokens.length ≤ further.cursor + tokens.length := Nat.le_add_left _ _
  refine ⟨?_, ?_, progresses_readParameter hlast hend start⟩
  · exact Returns.ends (progresses_readType hlast hend (hfuel start)) extends_readType
  · exact Returns.ends
      (progresses_readField hlast hend
        (fun further _ => progresses_readType hlast hend (hfuel further)) (Nat.le_refl start.cursor))
      fun fuel => extends_readField (extends_readType fuel)

/-- A field of a struct, in an input that is cut off after its comma.  The limit is the largest machine
word. -/
def Position.atCutOffField :
    Position [⟨.identifier "a", 0⟩, ⟨.identifier "INT64", 2⟩, ⟨.comma, 7⟩, ⟨.endOfInput, 8⟩]
      18446744073709551615 where
  cursor := 0
  depth := 1
  cursor_lt := by decide
  depth_le := by decide

-- The round of the field ends, though nothing follows its comma.
theorem reading_progresses_cut_off :
    [Token.mk (.identifier "a") 0, ⟨.identifier "INT64", 2⟩, ⟨.comma, 7⟩,
        ⟨.endOfInput, 8⟩].getLast? = some ⟨.endOfInput, 8⟩ ∧
      (Token.mk .endOfInput 8).lexeme = .endOfInput ∧
      Ends (fun fuel => readField (readType fuel)) Position.atCutOffField
        (Progress Position.atCutOffField) :=
  ⟨rfl, rfl, (reading_progresses rfl rfl Position.atCutOffField).2.1⟩

-- It says that another field has to follow, and leaves the cursor on the end of the input.
example :
    (readField (readType 3)).run.run Position.atCutOffField =
      some (.ok (⟨"a", .simple .int64⟩, true), { Position.atCutOffField with
        cursor := 3, cursor_lt := by decide }) := by
  rfl

end SchemaCatalog.Parser.Descent
