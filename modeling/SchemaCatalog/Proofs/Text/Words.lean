import SchemaCatalog.Proofs.SqlType.Layout

/-!
# Trimming and words

A text is its trimmed form between two runs of white space, and the trimmed form is the only part that
can stand there.  White space at the ends of a text takes no part in its words.  What is no white space
is found again in the words of a text and in what they are joined to.
-/

namespace SchemaCatalog.Text

/-! ## Trimming -/

-- White space around a text that neither starts nor ends in it is all that trimming drops.
theorem trim_append_of_stops {lead text trail : List Char}
    (hlead : ∀ c ∈ lead, isWhiteSpace c = true) (htrail : ∀ c ∈ trail, isWhiteSpace c = true)
    (hstart : stops isWhiteSpace text = true) (hend : stops isWhiteSpace text.reverse = true) :
    trim (lead ++ (text ++ trail)) = text := by
  cases text with
  | nil =>
    have hdrop := @dropWhile_append_of_stops isWhiteSpace (lead ++ trail) []
      (List.forall_mem_append.mpr ⟨hlead, htrail⟩) rfl
    rw [List.append_nil] at hdrop
    rw [List.nil_append, trim, hdrop]
    rfl
  | cons c rest =>
    have hdrop : (lead ++ (c :: rest ++ trail)).dropWhile isWhiteSpace = c :: rest ++ trail :=
      dropWhile_append_of_stops hlead hstart
    have hreverse : ∀ d ∈ trail.reverse, isWhiteSpace d = true :=
      fun d hd => htrail d (List.mem_reverse.mp hd)
    rw [trim, hdrop, List.reverse_append, dropWhile_append_of_stops hreverse hend,
      List.reverse_reverse]

theorem trim_of_stops {text : List Char} (hstart : stops isWhiteSpace text = true)
    (hend : stops isWhiteSpace text.reverse = true) : trim text = text := by
  have htrim := @trim_append_of_stops [] text [] (by simp) (by simp) hstart hend
  rwa [List.nil_append, List.append_nil] at htrim

theorem trim_of_ends {c d : Char} {middle : List Char} (hc : isWhiteSpace c = false)
    (hd : isWhiteSpace d = false) : trim (c :: (middle ++ [d])) = c :: (middle ++ [d]) :=
  trim_of_stops (by simp [stops, hc]) (by simp [stops, hd])

-- What is left of the white space that trimming drops.
theorem exists_trail (text : List Char) :
    ∃ trail, (∀ c ∈ trail, isWhiteSpace c = true) ∧
      text = text.takeWhile isWhiteSpace ++ (trim text ++ trail) := by
  refine ⟨((text.dropWhile isWhiteSpace).reverse.takeWhile isWhiteSpace).reverse, ?_, ?_⟩
  · intro c hc
    exact List.all_eq_true.mp List.all_takeWhile c (List.mem_reverse.mp hc)
  · rw [trim, ← List.reverse_append, List.takeWhile_append_dropWhile, List.reverse_reverse,
      List.takeWhile_append_dropWhile]

theorem stops_reverse_trim (text : List Char) : stops isWhiteSpace (trim text).reverse = true := by
  rw [trim, List.reverse_reverse]
  exact stops_dropWhile isWhiteSpace _

/-! ## Words -/

theorem words_append_space {c : Char} (hc : isWhiteSpace c = true) (text rest : List Char) :
    words (text ++ c :: rest) = words text ++ words rest := by
  rw [words, List.splitOnP_append_cons _ _ hc, List.filter_append, words, words]

theorem words_of_isWhiteSpace {gap : List Char} (hgap : ∀ c ∈ gap, isWhiteSpace c = true) :
    words gap = [] := by
  induction gap with
  | nil => rfl
  | cons c gap ih =>
    obtain ⟨hc, hgap⟩ := List.forall_mem_cons.mp hgap
    have happend := words_append_space hc [] gap
    rwa [List.nil_append, ih hgap] at happend

theorem words_append_of_isWhiteSpace {trail : List Char}
    (htrail : ∀ c ∈ trail, isWhiteSpace c = true) (text : List Char) :
    words (text ++ trail) = words text := by
  cases trail with
  | nil => rw [List.append_nil]
  | cons c trail =>
    obtain ⟨hc, htrail⟩ := List.forall_mem_cons.mp htrail
    rw [words_append_space hc, words_of_isWhiteSpace htrail, List.append_nil]

theorem words_of_append_isWhiteSpace {lead : List Char}
    (hlead : ∀ c ∈ lead, isWhiteSpace c = true) (text : List Char) :
    words (lead ++ text) = words text := by
  induction lead with
  | nil => rfl
  | cons c lead ih =>
    obtain ⟨hc, hlead⟩ := List.forall_mem_cons.mp hlead
    exact (words_append_space hc [] (lead ++ text)).trans (ih hlead)

theorem words_trim (text : List Char) : words (trim text) = words text := by
  obtain ⟨trail, htrail, htext⟩ := exists_trail text
  have hlead : ∀ c ∈ text.takeWhile isWhiteSpace, isWhiteSpace c = true :=
    List.all_eq_true.mp List.all_takeWhile
  conv => rhs; rw [htext]
  rw [words_of_append_isWhiteSpace hlead, words_append_of_isWhiteSpace htrail]

-- A text without white space is one word.
theorem words_singleton {word : List Char} (hne : word ≠ [])
    (hword : ∀ c ∈ word, isWhiteSpace c = false) : words word = [word] := by
  rw [words, List.splitOnP_eq_singleton hword]
  cases word with
  | nil => cases hne rfl
  | cons => rfl

-- A character that is no white space belongs to a word of the text.
theorem exists_mem_words {s : List Char} {c : Char} (hmem : c ∈ s)
    (hc : isWhiteSpace c = false) : ∃ word ∈ words s, c ∈ word := by
  have hpiece : ∃ piece ∈ s.splitOnP isWhiteSpace, c ∈ piece := by
    induction s with
    | nil => cases hmem
    | cons d rest ih =>
      rw [List.splitOnP_cons_eq_if_modifyHead]
      split
      · rename_i hd
        have hrest : c ∈ rest := by
          rcases List.mem_cons.mp hmem with rfl | hrest
          · rw [hc] at hd; cases hd
          · exact hrest
        rcases ih hrest with ⟨piece, hpiece, hin⟩
        exact ⟨piece, List.mem_cons_of_mem _ hpiece, hin⟩
      · cases hsplit : rest.splitOnP isWhiteSpace with
        | nil => exact absurd hsplit (List.splitOnP_ne_nil _ _)
        | cons first pieces =>
          rw [List.modifyHead_cons]
          rcases List.mem_cons.mp hmem with rfl | hrest
          · exact ⟨_, List.mem_cons_self, List.mem_cons_self⟩
          · rcases ih hrest with ⟨piece, hpiece, hin⟩
            rw [hsplit] at hpiece
            rcases List.mem_cons.mp hpiece with rfl | htail
            · exact ⟨_, List.mem_cons_self, List.mem_cons_of_mem _ hin⟩
            · exact ⟨piece, List.mem_cons_of_mem _ htail, hin⟩
  rcases hpiece with ⟨piece, hpiece, hin⟩
  refine ⟨piece, List.mem_filter.mpr ⟨hpiece, ?_⟩, hin⟩
  cases piece with
  | nil => cases hin
  | cons => rfl

theorem mem_intercalate {separator : List Char} {words : List (List Char)} {word : List Char}
    {c : Char} (hword : word ∈ words) (hc : c ∈ word) : c ∈ separator.intercalate words := by
  induction words with
  | nil => cases hword
  | cons first rest ih =>
    cases rest with
    | nil =>
      rw [List.intercalate_singleton]
      rw [List.mem_singleton.mp hword] at hc
      exact hc
    | cons second others =>
      rw [List.intercalate_cons_cons, List.append_assoc]
      rcases List.mem_cons.mp hword with rfl | hrest
      · exact List.mem_append_left _ hc
      · exact List.mem_append_right _ (List.mem_append_right _ (ih hrest))

end SchemaCatalog.Text
