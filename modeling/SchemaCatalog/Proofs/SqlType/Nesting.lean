import SchemaCatalog.SqlType.Brackets

/-!
# Nested brackets

`Nested` is the language of matched brackets of both kinds.  Brackets of which no closer is out of
place are nested parts with openers between them that nothing closes: `Leaves` says which.  The check
of brackets keeps exactly this record.  A step takes the brackets read and the openers left to the
next ones, and so a check ends with the openers that its brackets leave, unless it stops at a closer
that is out of place.
-/

namespace SchemaCatalog.Brackets

def isBracket (lexeme : Lexeme) : Bool :=
  isOpener lexeme || isCloser lexeme

/-- The brackets among tokens. -/
def among (tokens : List Token) : List Token :=
  tokens.filter fun token => isBracket token.lexeme

/-- Brackets that match. -/
inductive Nested : List Token → Prop where
  | empty : Nested []
  | append {front back : List Token} (hfront : Nested front) (hback : Nested back) :
      Nested (front ++ back)
  | enclosed {opener closer : Token} {body : List Token}
      (hpairs : pairs opener.lexeme closer.lexeme = true) (hbody : Nested body) :
      Nested (opener :: body ++ [closer])

/-- Brackets that match but for some openers without closers, which are listed innermost first. -/
inductive Leaves : List Token → List Token → Prop where
  | none {word : List Token} (hword : Nested word) : Leaves word []
  | opener {front left back : List Token} {opener : Token} (hfront : Leaves front left)
      (hopener : isOpener opener.lexeme = true) (hback : Nested back) :
      Leaves (front ++ opener :: back) (opener :: left)

/-! ## One step -/

theorem pairs_iff {opener closer : Lexeme} : pairs opener closer = true ↔
    opener = .less ∧ closer = .greater ∨ opener = .leftParen ∧ closer = .rightParen := by
  constructor
  · intro h
    unfold pairs at h
    split at h
    · exact .inl ⟨rfl, rfl⟩
    · exact .inr ⟨rfl, rfl⟩
    · cases h
  · rintro (⟨rfl, rfl⟩ | ⟨rfl, rfl⟩) <;> rfl

theorem isOpener_of_pairs {opener closer : Lexeme} (h : pairs opener closer = true) :
    isOpener opener = true ∧ isOpener closer = false ∧ isCloser closer = true := by
  rcases pairs_iff.mp h with ⟨rfl, rfl⟩ | ⟨rfl, rfl⟩ <;> exact ⟨rfl, rfl, rfl⟩

theorem isOpener_of_isCloser {lexeme : Lexeme} (h : isCloser lexeme = true) :
    isOpener lexeme = false := by
  cases lexeme <;> first | rfl | cases h

variable {opened next tokens rest : List Token} {opener token : Token} {mismatch : Mismatch}

theorem step_of_isOpener (h : isOpener token.lexeme = true) :
    step opened token = .ok (token :: opened) := by
  simp [step, h]

theorem step_of_pairs (h : pairs opener.lexeme token.lexeme = true) :
    step (opener :: opened) token = .ok opened := by
  obtain ⟨-, hopener, hcloser⟩ := isOpener_of_pairs h
  simp [step, hopener, hcloser, h]

theorem step_of_not_isBracket (h : isBracket token.lexeme = false) :
    step opened token = .ok opened := by
  rw [isBracket, Bool.or_eq_false_iff] at h
  simp [step, h]

-- An opener is opened, a closer closes the innermost bracket, and all else changes nothing.
theorem step_ok (h : step opened token = .ok next) :
    (isOpener token.lexeme = true ∧ next = token :: opened) ∨
    (∃ opener, opened = opener :: next ∧ pairs opener.lexeme token.lexeme = true) ∨
    (isBracket token.lexeme = false ∧ next = opened) := by
  unfold step at h
  split at h
  · rename_i hopener
    cases h
    exact .inl ⟨hopener, rfl⟩
  rename_i hopener
  split at h
  · split at h
    · cases h
    · rename_i opener outer
      split at h
      · rename_i hpairs
        cases h
        exact .inr (.inl ⟨opener, rfl, hpairs⟩)
      · cases h
  · rename_i hcloser
    cases h
    exact .inr (.inr ⟨by simp [isBracket, hopener, hcloser], rfl⟩)

-- A closer is out of place.
theorem step_error (h : step opened token = .error mismatch) :
    isCloser token.lexeme = true ∧
      ((opened = [] ∧ mismatch = ⟨.unmatched token.lexeme, token⟩) ∨
        ∃ opener outer, opened = opener :: outer ∧ pairs opener.lexeme token.lexeme = false ∧
          mismatch = ⟨.mismatched opener.lexeme token.lexeme, opener⟩) := by
  unfold step at h
  split at h
  · cases h
  split at h
  · rename_i hcloser
    refine ⟨hcloser, ?_⟩
    split at h
    · cases h
      exact .inl ⟨rfl, rfl⟩
    · rename_i opener outer
      split at h
      · cases h
      · rename_i hpairs
        cases h
        exact .inr ⟨opener, outer, rfl, by simpa using hpairs, rfl⟩
  · cases h

/-! ## A whole check -/

theorem check_cons_of_step (h : step opened token = .ok next) :
    check opened (token :: rest) = check next rest := by
  rw [check, h]

-- Tokens that are no brackets play no part.
theorem check_among : check opened (among tokens) = check opened tokens := by
  induction tokens generalizing opened with
  | nil => rfl
  | cons token rest ih =>
    cases hbracket : isBracket token.lexeme with
    | true =>
      have hamong : among (token :: rest) = token :: among rest :=
        List.filter_cons_of_pos hbracket
      rw [hamong, check, check]
      cases step opened token with
      | ok next => exact ih
      | error mismatch => rfl
    | false =>
      have hamong : among (token :: rest) = among rest :=
        List.filter_cons_of_neg (by simp [hbracket])
      rw [hamong, check_cons_of_step (step_of_not_isBracket hbracket), ih]

variable {word left : List Token}

-- A check passes over matched brackets.
theorem Nested.check (h : Nested word) : check opened (word ++ rest) = check opened rest := by
  induction h generalizing opened rest with
  | empty => rfl
  | append hfront hback ihfront ihback => rw [List.append_assoc, ihfront, ihback]
  | @enclosed opener closer body hpairs hbody ih =>
    have hopener := (isOpener_of_pairs hpairs).1
    have hword : opener :: body ++ [closer] ++ rest = opener :: (body ++ closer :: rest) := by simp
    rw [hword, check_cons_of_step (step_of_isOpener hopener), ih,
      check_cons_of_step (step_of_pairs hpairs)]

-- Openers that nothing closes stay open.
theorem Leaves.check (h : Leaves word left) :
    check opened (word ++ rest) = check (left ++ opened) rest := by
  induction h generalizing opened rest with
  | none hword => exact hword.check
  | @opener front left back opener hfront hopener hback ih =>
    rw [List.append_assoc, ih, List.cons_append, check_cons_of_step (step_of_isOpener hopener),
      hback.check, List.cons_append]

theorem Leaves.append (h : Leaves word left) {back : List Token} (hback : Nested back) :
    Leaves (word ++ back) left := by
  cases h with
  | none hword => exact .none (hword.append hback)
  | opener hfront hopener hinside =>
    rw [List.append_assoc, List.cons_append]
    exact .opener hfront hopener (hinside.append hback)

-- One step keeps the record of the brackets read and the openers left.
theorem Leaves.step (h : Leaves word opened) (hstep : step opened token = .ok next) :
    Leaves (word ++ among [token]) next := by
  rcases step_ok hstep with ⟨hopener, rfl⟩ | ⟨opener, rfl, hpairs⟩ | ⟨hbracket, rfl⟩
  · have hamong : among [token] = [token] :=
      List.filter_cons_of_pos (by simp [isBracket, hopener])
    rw [hamong]
    exact .opener h hopener .empty
  · have hamong : among [token] = [token] :=
      List.filter_cons_of_pos (by simp [isBracket, (isOpener_of_pairs hpairs).2.2])
    rw [hamong]
    cases h with
    | @opener front left inside _ hfront hopener hinside =>
      rw [List.append_assoc]
      exact hfront.append (.enclosed hpairs hinside)
  · have hamong : among [token] = [] := List.filter_cons_of_neg (by simp [hbracket])
    rw [hamong, List.append_nil]
    exact h

-- A check ends with the openers that are left, or stops at a closer that is out of place.
theorem leaves_or_stops (h : Leaves word opened) :
    (∃ left, Leaves (word ++ among tokens) left ∧ check opened tokens = check left []) ∨
    ∃ front closer back left mismatch, tokens = front ++ closer :: back ∧
      Leaves (word ++ among front) left ∧ step left closer = .error mismatch ∧
      check opened tokens = .error mismatch := by
  induction tokens generalizing word opened with
  | nil => exact .inl ⟨opened, by rwa [among, List.filter_nil, List.append_nil], rfl⟩
  | cons token rest ih =>
    have hcons : ∀ more, among (token :: more) = among [token] ++ among more :=
      fun more => List.filter_append [token] more
    cases hstep : step opened token with
    | ok next =>
      rw [check_cons_of_step hstep]
      rcases ih (h.step hstep) with
        ⟨left, hleft, hcheck⟩ | ⟨front, closer, back, left, mismatch, rfl, hleft, hstops, hcheck⟩
      · refine .inl ⟨left, ?_, hcheck⟩
        rwa [hcons, ← List.append_assoc]
      · refine .inr ⟨token :: front, closer, back, left, mismatch, rfl, ?_, hstops, hcheck⟩
        rwa [hcons, ← List.append_assoc]
    | error mismatch =>
      refine .inr ⟨[], token, rest, opened, mismatch, rfl, ?_, hstep, by rw [check, hstep]⟩
      rwa [among, List.filter_nil, List.append_nil]

-- Brackets do not match if they leave openers, of which the innermost is to blame, or if the check
-- stops at a closer.
theorem leaves_or_stops_of_error (h : balanced tokens = .error mismatch) :
    (∃ opener outer, Leaves (among tokens) (opener :: outer) ∧
      mismatch = ⟨.unmatched opener.lexeme, opener⟩) ∨
    ∃ front closer back left, tokens = front ++ closer :: back ∧ Leaves (among front) left ∧
      step left closer = .error mismatch := by
  rw [balanced] at h
  rcases leaves_or_stops (.none .empty) with
    ⟨left, hleft, hcheck⟩ | ⟨front, closer, back, left, fault, htokens, hleft, hstops, hcheck⟩
  · rw [hcheck] at h
    cases left with
    | nil => cases h
    | cons opener outer =>
      cases h
      exact .inl ⟨opener, outer, hleft, rfl⟩
  · rw [hcheck] at h
    cases h
    exact .inr ⟨front, closer, back, left, htokens, hleft, hstops⟩

-- A closer at which the check stops is out of place.
theorem balanced_error (h : balanced tokens = .error mismatch) :
    (∃ opener outer, Leaves (among tokens) (opener :: outer) ∧
      mismatch = ⟨.unmatched opener.lexeme, opener⟩) ∨
    ∃ front closer back left, tokens = front ++ closer :: back ∧ Leaves (among front) left ∧
      isCloser closer.lexeme = true ∧
      ((left = [] ∧ mismatch = ⟨.unmatched closer.lexeme, closer⟩) ∨
        ∃ opener outer, left = opener :: outer ∧ pairs opener.lexeme closer.lexeme = false ∧
          mismatch = ⟨.mismatched opener.lexeme closer.lexeme, opener⟩) := by
  rcases leaves_or_stops_of_error h with hleft | ⟨front, closer, back, left, htokens, hleft, hstops⟩
  · exact .inl hleft
  · exact .inr ⟨front, closer, back, left, htokens, hleft, step_error hstops⟩

-- Openers that are left are among the brackets, from the innermost outwards.
theorem Leaves.sublist (h : Leaves word left) : left.reverse.Sublist word := by
  induction h with
  | none hword => exact List.nil_sublist _
  | @opener front left back opener hfront hopener hback ih =>
    rw [List.reverse_cons]
    exact ih.append (List.Sublist.cons_cons opener (List.nil_sublist back))

theorem Leaves.mem_of_mem_among (h : Leaves (among tokens) left) (hopener : opener ∈ left) :
    opener ∈ tokens :=
  (List.mem_filter.mp (h.sublist.subset (List.mem_reverse.mpr hopener))).1

/-! ## The verdict -/

theorem nested_of_leaves_nil (h : Leaves word []) : Nested word := by
  cases h with
  | none hword => exact hword

theorem balanced_eq_ok_iff : balanced tokens = .ok () ↔ Nested (among tokens) := by
  constructor
  · intro h
    rw [balanced] at h
    rcases leaves_or_stops (.none .empty) with
      ⟨left, hleft, hcheck⟩ | ⟨_, _, _, _, _, _, _, _, hcheck⟩
    · rw [hcheck] at h
      cases left with
      | nil => exact nested_of_leaves_nil hleft
      | cons opener outer => cases h
    · rw [hcheck] at h
      cases h
  · intro h
    rw [balanced, ← check_among, ← List.append_nil (among tokens), h.check]
    rfl

theorem Leaves.isOpener (h : Leaves word left) : ∀ opener ∈ left, isOpener opener.lexeme = true := by
  induction h with
  | none => exact fun _ hopener => nomatch hopener
  | opener _ hopener _ ih => exact List.forall_mem_cons.mpr ⟨hopener, ih⟩

/-- The closer that an opener waits for. -/
def closing (opener : Token) : Token :=
  ⟨if opener.lexeme = .less then .greater else .rightParen, opener.position⟩

theorem pairs_closing (h : isOpener opener.lexeme = true) :
    pairs opener.lexeme (closing opener).lexeme = true := by
  cases opener with | mk lexeme position
  cases lexeme <;> first | rfl | cases h

theorem check_map_closing (h : ∀ opener ∈ opened, isOpener opener.lexeme = true) :
    check opened (opened.map closing) = .ok () := by
  induction opened with
  | nil => rfl
  | cons opener outer ih =>
    rw [List.forall_mem_cons] at h
    rw [List.map_cons, check_cons_of_step (step_of_pairs (pairs_closing h.1)), ih h.2]

section Prefix

variable {front pending : List Token}

-- The closers that the pending openers wait for complete what is read, whatever is pending.
theorem exists_nested_of_leaves (h : Leaves (among front) pending) :
    ∃ rest, Nested (among front ++ rest) := by
  have hbalanced : balanced (front ++ pending.map closing) = .ok () := by
    have hbrackets : check [] (among front ++ among (pending.map closing)) =
        check (pending ++ []) (among (pending.map closing)) := h.check
    rw [balanced, ← check_among, among, List.filter_append, ← among, ← among, hbrackets,
      List.append_nil, check_among, check_map_closing h.isOpener]
  have hnested := balanced_eq_ok_iff.mp hbalanced
  rw [among, List.filter_append] at hnested
  exact ⟨_, hnested⟩

-- Nothing that follows makes up for a closer that is out of place.
theorem not_nested_of_stops (h : Leaves (among front) pending)
    (hstops : step pending token = .error mismatch) (rest : List Token) :
    ¬ Nested (among front ++ token :: rest) := by
  intro hnested
  have hpasses : check [] ((among front ++ token :: rest) ++ []) = .ok () := hnested.check
  have hfails : check pending (token :: rest) = .error mismatch := by rw [check, hstops]
  rw [List.append_nil, h.check, List.append_nil, hfails] at hpasses
  cases hpasses

end Prefix

/-- **The check accepts exactly the nested brackets.**  If it fails, either it comes to the end with
openers that nothing closes, or it stops at a closer.  What comes before this closer can be completed,
but not with the closer; to blame is the innermost opener that is pending there, or the closer itself
if none is. -/
theorem balanced_verdict (tokens : List Token) :
    (balanced tokens = .ok () ↔ Nested (among tokens)) ∧
    ∀ mismatch, balanced tokens = .error mismatch →
      (∃ opener outer, Leaves (among tokens) (opener :: outer) ∧
        mismatch = ⟨.unmatched opener.lexeme, opener⟩) ∨
      ∃ front closer back pending, tokens = front ++ closer :: back ∧
        isCloser closer.lexeme = true ∧
        (∃ rest, Nested (among front ++ rest)) ∧
        (∀ rest, ¬ Nested (among front ++ closer :: rest)) ∧
        Leaves (among front) pending ∧
        (pending = [] ∧ mismatch = ⟨.unmatched closer.lexeme, closer⟩ ∨
          ∃ opener outer, pending = opener :: outer ∧
            mismatch = ⟨.mismatched opener.lexeme closer.lexeme, opener⟩) := by
  refine ⟨balanced_eq_ok_iff, fun mismatch hbalanced => ?_⟩
  rcases leaves_or_stops_of_error hbalanced with
    hleft | ⟨front, closer, back, pending, htokens, hpending, hstops⟩
  · exact .inl hleft
  · obtain ⟨hcloser, hblame⟩ := step_error hstops
    refine .inr ⟨front, closer, back, pending, htokens, hcloser, exists_nested_of_leaves hpending,
      not_nested_of_stops hpending hstops, hpending, ?_⟩
    rcases hblame with hnone | ⟨opener, outer, hopener, -, hfault⟩
    · exact .inl hnone
    · exact .inr ⟨opener, outer, hopener, hfault⟩

/-- The parenthesis meets the inner angle bracket, and the quoted bracket does not count. -/
theorem balanced_verdict_crossed :
    let tokens : List Token := [⟨.less, 6⟩, ⟨.quoted ">", 7⟩, ⟨.less, 16⟩, ⟨.rightParen, 17⟩]
    balanced tokens = .error ⟨.mismatched .less .rightParen, ⟨.less, 16⟩⟩ ∧
      ∃ front pending, (∃ rest, Nested (among front ++ rest)) ∧
        (∀ rest, ¬ Nested (among front ++ ⟨.rightParen, 17⟩ :: rest)) ∧
        Leaves (among front) (⟨.less, 16⟩ :: pending) := by
  intro tokens
  have hfails : balanced tokens = .error ⟨.mismatched .less .rightParen, ⟨.less, 16⟩⟩ := rfl
  refine ⟨hfails, ?_⟩
  rcases (balanced_verdict tokens).2 _ hfails with
    ⟨_, _, -, hother⟩ | ⟨front, closer, back, pending, htokens, hcloser, hextends, hstuck,
      hpending, ⟨-, hother⟩ | ⟨opener, outer, rfl, hfault⟩⟩
  · cases hother
  · cases hother
  · injection hfault with hreason hopener
    subst hopener
    have hmem : closer ∈ tokens := htokens ▸ List.mem_append_right front List.mem_cons_self
    obtain rfl : closer = ⟨.rightParen, 17⟩ := by
      simp only [tokens, List.mem_cons, List.not_mem_nil, or_false] at hmem
      rcases hmem with rfl | rfl | rfl | rfl
      · cases hcloser
      · cases hcloser
      · cases hcloser
      · rfl
    exact ⟨front, outer, hextends, hstuck, hpending⟩

end SchemaCatalog.Brackets
