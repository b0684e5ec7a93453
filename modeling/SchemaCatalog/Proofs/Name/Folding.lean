import SchemaCatalog.Name.Dotted
import SchemaCatalog.Name.Fold
import SchemaCatalog.Name.Qualified
import SchemaCatalog.Proofs.Text.Lowered
import SchemaCatalog.Proofs.Text.Sigma
import SchemaCatalog.Proofs.Text.Words

/-!
# Folding and the separators of names

Lower-casing touches neither the full stop nor the colon and makes neither out of another character.
Away from the capital sigma, whose form depends on its neighbours, a name folds part by part.
-/

namespace SchemaCatalog

namespace Name

/-- Holds no capital sigma, so that every character folds on its own. -/
def SigmaFree (name : String) : Prop :=
  'Σ' ∉ name.toList

instance (name : String) : Decidable (SigmaFree name) :=
  inferInstanceAs (Decidable ('Σ' ∉ name.toList))

theorem sigmaFree_append {first second : String} :
    SigmaFree (first ++ second) ↔ SigmaFree first ∧ SigmaFree second := by
  simp only [SigmaFree, String.toList_append, List.mem_append, not_or]

theorem fold_append {first second : String} (hfirst : SigmaFree first)
    (hsecond : SigmaFree second) : fold (first ++ second) = fold first ++ fold second := by
  have hboth : SigmaFree (first ++ second) := sigmaFree_append.mpr ⟨hfirst, hsecond⟩
  apply String.toList_injective
  rw [toList_fold, Text.lower_eq_flatMap hboth, String.toList_append, List.flatMap_append,
    String.toList_append, toList_fold, toList_fold, Text.lower_eq_flatMap hfirst,
    Text.lower_eq_flatMap hsecond]

/-- A key is its own key. -/
theorem fold_fold (name : String) : fold (fold name) = fold name := by
  apply String.toList_injective
  rw [toList_fold, toList_fold, Text.lower_lower]

theorem sigmaFree_fold (name : String) : SigmaFree (fold name) := by
  intro hsigma
  rw [toList_fold] at hsigma
  exact (Text.isLower_of_mem_lowerAfter hsigma).1 rfl

theorem dot_mem_fold_iff {name : String} : '.' ∈ (fold name).toList ↔ '.' ∈ name.toList := by
  rw [toList_fold]
  exact Text.mem_lowerAfter_iff (by decide) (by decide)

theorem colon_mem_fold_iff {name : String} : ':' ∈ (fold name).toList ↔ ':' ∈ name.toList := by
  rw [toList_fold]
  exact Text.mem_lowerAfter_iff (by decide) (by decide)

theorem fold_singleton (d : Char) (hlt : d.toNat < 0x41) :
    fold (String.singleton d) = String.singleton d := by
  apply String.toList_injective
  rw [toList_fold, String.toList_singleton, Text.lower, Text.lowerAfter_cons_of_lt hlt]
  rfl

theorem fold_dot : fold "." = "." := fold_singleton '.' (by decide)

theorem fold_colon : fold ":" = ":" := fold_singleton ':' (by decide)

theorem fold_qualify {group name : String} (hgroup : SigmaFree group) (hname : SigmaFree name) :
    fold (qualify group name) = qualify (fold group) (fold name) := by
  have hcolon : SigmaFree ":" := by decide
  rw [qualify, fold_append (sigmaFree_append.mpr ⟨hgroup, hcolon⟩) hname,
    fold_append hgroup hcolon, fold_colon, qualify]

/-! ## A segment in front of a name -/

/-- A name with one more segment in front. -/
def under (segment name : String) : String :=
  segment ++ "." ++ name

theorem dotted_cons {rest : List String} (hne : rest ≠ []) (segment : String) :
    dotted (segment :: rest) = under segment (dotted rest) :=
  String.intercalate_cons_of_ne_nil hne

theorem sigmaFree_under {segment name : String} :
    SigmaFree (under segment name) ↔ SigmaFree segment ∧ SigmaFree name := by
  have hdot : SigmaFree "." := by decide
  rw [under, sigmaFree_append, sigmaFree_append]
  exact ⟨fun h => ⟨h.1.1, h.2⟩, fun h => ⟨⟨h.1, hdot⟩, h.2⟩⟩

theorem fold_under {segment name : String} (hsegment : SigmaFree segment)
    (hname : SigmaFree name) : fold (under segment name) = under (fold segment) (fold name) := by
  have hdot : SigmaFree "." := by decide
  rw [under, fold_append (sigmaFree_append.mpr ⟨hsegment, hdot⟩) hname,
    fold_append hsegment hdot, fold_dot, under]

theorem sigmaFree_of_mem_segments {name segment : String} (hname : SigmaFree name)
    (hsegment : segment ∈ segments name) : SigmaFree segment := by
  intro hsigma
  apply hname
  have hjoined := @Text.mem_intercalate ['.'] _ _ _ (List.mem_map_of_mem hsegment) hsigma
  rw [← dotted_segments name, dotted, String.toList_intercalate]
  exact hjoined

theorem sigmaFree_dotted {segments : List String} (h : ∀ segment ∈ segments, SigmaFree segment) :
    SigmaFree (dotted segments) := by
  induction segments with
  | nil => decide
  | cons segment rest ih =>
    have hrest : SigmaFree (dotted rest) := ih fun other hother =>
      h other (List.mem_cons_of_mem _ hother)
    by_cases hne : rest = []
    · rw [hne, dotted_singleton]
      exact h segment List.mem_cons_self
    · rw [dotted_cons hne]
      exact sigmaFree_under.mpr ⟨h segment List.mem_cons_self, hrest⟩

theorem dot_notMem_of_mem_segments {name segment : String} (h : segment ∈ segments name) :
    '.' ∉ segment.toList := by
  have hpieces : ∀ (s piece : List Char), piece ∈ s.splitOn '.' → '.' ∉ piece := by
    intro s
    induction s with
    | nil =>
      intro piece hpiece
      rw [List.splitOn_nil, List.mem_singleton] at hpiece
      rw [hpiece]
      exact List.not_mem_nil
    | cons c rest ih =>
      intro piece hpiece
      rw [List.splitOn_cons_eq_if_modifyHead] at hpiece
      split at hpiece
      · rcases List.mem_cons.mp hpiece with rfl | hpiece
        · exact List.not_mem_nil
        · exact ih piece hpiece
      · rename_i hc
        cases hsplit : rest.splitOn '.' with
        | nil => exact absurd hsplit (List.splitOn_ne_nil _ _)
        | cons first pieces =>
          rw [hsplit] at hpiece ih
          rw [List.modifyHead_cons] at hpiece
          rcases List.mem_cons.mp hpiece with rfl | hpiece
          · intro hmem
            rcases List.mem_cons.mp hmem with rfl | hmem
            · exact hc (beq_self_eq_true _)
            · exact ih first List.mem_cons_self hmem
          · exact ih piece (List.mem_cons_of_mem _ hpiece)
  rcases List.mem_map.mp h with ⟨piece, hpiece, rfl⟩
  rw [String.toList_ofList]
  exact hpieces name.toList piece hpiece

/-! ## The first separator -/

/-- The text before the first separator and the text after it. -/
def splitFirst? (separator : Char) (text : String) : Option (String × String) :=
  match text.toList.dropWhile (· != separator) with
  | [] => none
  | _ :: rest => some (String.ofList (text.toList.takeWhile (· != separator)), String.ofList rest)

theorem splitQualified?_eq (name : String) : splitQualified? name = splitFirst? ':' name := rfl

theorem splitFirst?_eq_some_iff {separator : Char} {text before after : String} :
    splitFirst? separator text = some (before, after) ↔
      separator ∉ before.toList ∧ text.toList = before.toList ++ separator :: after.toList := by
  unfold splitFirst?
  constructor
  · intro h
    have hjoin := List.takeWhile_append_dropWhile (p := (· != separator)) (l := text.toList)
    cases hdrop : text.toList.dropWhile (· != separator) with
    | nil =>
      rw [hdrop] at h
      cases h
    | cons c rest =>
      rw [hdrop] at h
      cases h
      have hc : c = separator := by
        have hhead := List.head?_dropWhile_not (· != separator) text.toList
        rw [hdrop] at hhead
        simpa using hhead
      rw [String.toList_ofList, String.toList_ofList]
      constructor
      · intro hmem
        have hne := List.all_eq_true.mp List.all_takeWhile separator hmem
        simp at hne
      · rw [hdrop, hc] at hjoin
        exact hjoin.symm
  · rintro ⟨hbefore, htext⟩
    have hall : ∀ c ∈ before.toList, (c != separator) = true := by
      intro c hc
      have hne : c ≠ separator := fun h => hbefore (h ▸ hc)
      simpa using hne
    rw [htext, List.dropWhile_append_of_pos hall, List.takeWhile_append_of_pos hall]
    simp

theorem splitFirst?_under {segment : String} (hsegment : '.' ∉ segment.toList) (name : String) :
    splitFirst? '.' (under segment name) = some (segment, name) := by
  apply splitFirst?_eq_some_iff.mpr
  refine ⟨hsegment, ?_⟩
  simp [under]

theorem eq_qualify_of_splitQualified? {key group name : String}
    (h : splitQualified? key = some (group, name)) :
    ':' ∉ group.toList ∧ key = qualify group name := by
  rw [splitQualified?_eq, splitFirst?_eq_some_iff] at h
  refine ⟨h.1, String.toList_injective ?_⟩
  rw [h.2]
  simp [qualify]

theorem colon_mem_qualify (group name : String) : ':' ∈ (qualify group name).toList := by
  simp [qualify]

theorem exists_eq_qualify {name : String} (h : ':' ∈ name.toList) :
    ∃ group rest, ':' ∉ group.toList ∧ name = qualify group rest := by
  rcases List.eq_append_cons_of_mem h with ⟨front, back, htext, hfront⟩
  refine ⟨String.ofList front, String.ofList back, ?_, String.toList_injective ?_⟩
  · rw [String.toList_ofList]
    exact hfront
  · rw [htext]
    simp [qualify]

end Name

end SchemaCatalog
