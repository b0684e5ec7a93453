import SchemaCatalog.Proofs.Name.Folding

/-!
# Spellings of a name

Names are alike if they differ only in the case of letters other than the capital sigma.  Names that
are alike have the same key, and so have their parts.  Names with the same key need not be alike, but
they have the same structure: up to the form of the sigmas folding, too, changes a name character by
character.
-/

namespace SchemaCatalog

namespace Text

/-- A change of single characters under which a text keeps its structure: what comes before the
letters stays and does not arise, and white space stays white space. -/
structure Transparent (f : Char → List Char) : Prop where
  keeps : ∀ d : Char, d.toNat < 0x41 → f d = [d]
  mem_iff : ∀ c d : Char, 0 < d.toNat → d.toNat < 0x41 → (d ∈ f c ↔ d = c)
  blank : ∀ c, (f c).all isWhiteSpace = isWhiteSpace c

theorem ne_of_lt {d letter : Char} (hletter : 0x41 ≤ letter.toNat) (hlt : d.toNat < 0x41) :
    d ≠ letter := by
  rintro rfl
  omega

theorem spareChar_of_ne {c : Char} (hne : c ≠ 'Σ') : spareChar c = lowerChar c :=
  if_neg hne

theorem mergeChar_of_ne {c : Char} (hne : c ≠ 'Σ') : mergeChar c = (lowerChar c).map mergeSigma := by
  rw [mergeChar, lowerBetween, if_neg hne]

theorem transparent_spareChar : Transparent spareChar := by
  refine ⟨?_, ?_, ?_⟩
  · intro d hlt
    rw [spareChar_of_ne (ne_of_lt (by decide) hlt), lowerChar_of_lt hlt]
  · intro c d hpos hlt
    unfold spareChar
    split
    · rename_i hsigma
      rw [hsigma, List.mem_singleton]
    · exact mem_lowerChar_iff hpos hlt
  · intro c
    rcases spareChar_cases c with ⟨rfl, hspare⟩ | ⟨d, hspare, -, hd⟩
    · rw [hspare]
      decide
    · have hsame : isWhiteSpace d = isWhiteSpace c := by
        rcases hd with rfl | ⟨hc, hd⟩
        · rfl
        · rw [isWhiteSpace_of_isCaseLetter hc, isWhiteSpace_of_isCaseLetter hd]
      rw [hspare, List.all_cons, List.all_nil, Bool.and_true, hsame]

theorem isWhiteSpace_mergeSigma (c : Char) : isWhiteSpace (mergeSigma c) = isWhiteSpace c := by
  unfold mergeSigma
  split
  · rename_i hsigma
    subst hsigma
    decide
  · rfl

theorem mem_map_mergeSigma_iff {s : List Char} {d : Char} (hlt : d.toNat < 0x41) :
    d ∈ s.map mergeSigma ↔ d ∈ s := by
  have hmerge : ∀ c, mergeSigma c = d ↔ c = d := by
    intro c
    unfold mergeSigma
    split
    · rename_i hsigma
      subst hsigma
      exact iff_of_false (ne_of_lt (by decide) hlt).symm (ne_of_lt (by decide) hlt).symm
    · exact Iff.rfl
  rw [List.mem_map]
  constructor
  · rintro ⟨c, hc, hd⟩
    exact (hmerge c).mp hd ▸ hc
  · intro hd
    exact ⟨d, hd, (hmerge d).mpr rfl⟩

theorem transparent_mergeChar : Transparent mergeChar := by
  refine ⟨?_, ?_, ?_⟩
  · intro d hlt
    rw [mergeChar_of_ne (ne_of_lt (by decide) hlt), lowerChar_of_lt hlt, List.map_singleton,
      mergeSigma, if_neg (ne_of_lt (by decide) hlt)]
  · intro c d hpos hlt
    rw [mergeChar, mem_map_mergeSigma_iff hlt, mem_lowerBetween_iff hpos hlt]
  · intro c
    by_cases hsigma : c = 'Σ'
    · subst hsigma
      decide
    · have hspare := transparent_spareChar.blank c
      rw [spareChar_of_ne hsigma] at hspare
      have hmerge : isWhiteSpace ∘ mergeSigma = isWhiteSpace := funext isWhiteSpace_mergeSigma
      rw [mergeChar_of_ne hsigma, List.all_map, hmerge, hspare]

end Text

namespace Name

/-- A name with its characters changed one by one. -/
def respell (f : Char → List Char) (name : String) : String :=
  String.ofList (name.toList.flatMap f)

section Respell

variable {f : Char → List Char}

theorem toList_respell (name : String) : (respell f name).toList = name.toList.flatMap f :=
  String.toList_ofList

theorem respell_append (first second : String) :
    respell f (first ++ second) = respell f first ++ respell f second := by
  apply String.toList_injective
  simp only [toList_respell, String.toList_append, List.flatMap_append]

theorem respell_singleton (h : Text.Transparent f) (d : Char) (hlt : d.toNat < 0x41) :
    respell f (String.singleton d) = String.singleton d := by
  apply String.toList_injective
  rw [toList_respell, String.toList_singleton, List.flatMap_singleton, h.keeps d hlt]

theorem respell_dotted (h : Text.Transparent f) (parts : List String) :
    respell f (dotted parts) = dotted (parts.map (respell f)) := by
  induction parts with
  | nil => rfl
  | cons part rest ih =>
    by_cases hrest : rest = []
    · rw [hrest, List.map_singleton, dotted_singleton, dotted_singleton]
    · have hmap : rest.map (respell f) ≠ [] := by simpa using hrest
      have hdot : respell f "." = "." := respell_singleton h '.' (by decide)
      rw [List.map_cons, dotted_cons hrest, dotted_cons hmap, under, under, respell_append,
        respell_append, hdot, ih]

theorem segments_respell (h : Text.Transparent f) (name : String) :
    segments (respell f name) = (segments name).map (respell f) := by
  have hparts : ∀ part ∈ (segments name).map (respell f), '.' ∉ part.toList := by
    intro part hpart hdot
    rcases List.mem_map.mp hpart with ⟨segment, hsegment, rfl⟩
    rw [toList_respell, List.mem_flatMap] at hdot
    rcases hdot with ⟨c, hc, hdot⟩
    have hsame : '.' = c := (h.mem_iff c '.' (by decide) (by decide)).mp hdot
    exact dot_notMem_of_mem_segments hsegment (hsame ▸ hc)
  have hne : (segments name).map (respell f) ≠ [] := by
    simpa using segments_ne_nil name
  have hjoined := respell_dotted h (segments name)
  rw [dotted_segments] at hjoined
  rw [hjoined, segments_dotted hne hparts]

theorem respell_qualify (h : Text.Transparent f) (group name : String) :
    respell f (qualify group name) = qualify (respell f group) (respell f name) := by
  have hcolon : respell f ":" = ":" := respell_singleton h ':' (by decide)
  rw [qualify, respell_append, respell_append, hcolon, qualify]

theorem colon_mem_respell_iff (h : Text.Transparent f) {name : String} :
    ':' ∈ (respell f name).toList ↔ ':' ∈ name.toList := by
  rw [toList_respell, List.mem_flatMap]
  constructor
  · rintro ⟨c, hc, hcolon⟩
    exact (h.mem_iff c ':' (by decide) (by decide)).mp hcolon ▸ hc
  · intro hcolon
    exact ⟨':', hcolon, (h.mem_iff ':' ':' (by decide) (by decide)).mpr rfl⟩

theorem isBlank_respell (h : Text.Transparent f) (name : String) :
    Text.isBlank (respell f name) = Text.isBlank name := by
  have hblank : (fun c => (f c).all Text.isWhiteSpace) = Text.isWhiteSpace := funext h.blank
  rw [Text.isBlank, Text.isBlank, toList_respell, List.all_flatMap, hblank]

/-! ## Names that are respelled alike -/

theorem any_isBlank_eq_of_respell_eq (h : Text.Transparent f) {first second : String}
    (heq : respell f first = respell f second) :
    (segments first).any Text.isBlank = (segments second).any Text.isBlank := by
  have hsegments := segments_respell h first
  rw [heq, segments_respell h] at hsegments
  have hblank : Text.isBlank ∘ respell f = Text.isBlank := by
    funext part
    rw [Function.comp_apply, isBlank_respell h]
  have hany : ∀ parts : List String,
      (parts.map (respell f)).any Text.isBlank = parts.any Text.isBlank := by
    intro parts
    rw [List.any_map, hblank]
  rw [← hany, ← hsegments, hany]

theorem colon_mem_iff_of_respell_eq (h : Text.Transparent f) {first second : String}
    (heq : respell f first = respell f second) : ':' ∈ first.toList ↔ ':' ∈ second.toList := by
  rw [← colon_mem_respell_iff h, heq, colon_mem_respell_iff h]

-- The parts of qualified names are respelled alike, since the first colons correspond.
theorem respell_eq_of_respell_qualify_eq (h : Text.Transparent f) {group other first second : String}
    (hgroup : ':' ∉ group.toList) (hother : ':' ∉ other.toList)
    (heq : respell f (qualify group first) = respell f (qualify other second)) :
    respell f group = respell f other ∧ respell f first = respell f second := by
  have hsplit := splitQualified?_qualify (mt (colon_mem_respell_iff h).mp hgroup) (respell f first)
  rw [← respell_qualify h, heq, respell_qualify h,
    splitQualified?_qualify (mt (colon_mem_respell_iff h).mp hother)] at hsplit
  have hparts := Prod.mk.inj (Option.some.inj hsplit)
  exact ⟨hparts.1.symm, hparts.2.symm⟩

end Respell

/-! ## Names with the same key -/

theorem respell_mergeChar (name : String) :
    respell Text.mergeChar name = String.ofList ((fold name).toList.map Text.mergeSigma) := by
  rw [toList_fold, Text.lower, Text.map_mergeSigma_lowerAfter, respell]

theorem respell_mergeChar_eq_of_fold_eq {first second : String} (h : fold first = fold second) :
    respell Text.mergeChar first = respell Text.mergeChar second := by
  rw [respell_mergeChar, respell_mergeChar, h]

-- Without a capital sigma folding changes a name character by character.
theorem respell_spareChar {name : String} (h : SigmaFree name) :
    respell Text.spareChar name = fold name := by
  apply String.toList_injective
  have hchars : name.toList.map Text.spareChar = name.toList.map Text.lowerChar :=
    List.map_congr_left fun c hc => Text.spareChar_of_ne fun hsigma => h (hsigma ▸ hc)
  rw [toList_respell, toList_fold, Text.lower_eq_flatMap h, List.flatMap_def, hchars,
    ← List.flatMap_def]

theorem map_respell_spareChar {parts : List String} (h : ∀ part ∈ parts, SigmaFree part) :
    parts.map (respell Text.spareChar) = parts.map fold :=
  List.map_congr_left fun part hpart => respell_spareChar (h part hpart)

theorem fold_dotted {parts : List String} (h : ∀ part ∈ parts, SigmaFree part) :
    fold (dotted parts) = dotted (parts.map fold) := by
  rw [← respell_spareChar (sigmaFree_dotted h), respell_dotted Text.transparent_spareChar,
    map_respell_spareChar h]

theorem segments_fold {name : String} (h : SigmaFree name) :
    segments (fold name) = (segments name).map fold := by
  rw [← respell_spareChar h, segments_respell Text.transparent_spareChar,
    map_respell_spareChar fun _ hsegment => sigmaFree_of_mem_segments h hsegment]

/-- The names differ at most in the case of letters other than the capital sigma. -/
def Alike (first second : String) : Prop :=
  respell Text.spareChar first = respell Text.spareChar second

instance (first second : String) : Decidable (Alike first second) :=
  inferInstanceAs (Decidable (respell Text.spareChar first = respell Text.spareChar second))

namespace Alike

theorem fold_eq {first second : String} (h : Alike first second) : fold first = fold second := by
  have htexts : first.toList.flatMap Text.spareChar = second.toList.flatMap Text.spareChar := by
    rw [← toList_respell, ← toList_respell, show respell _ first = _ from h]
  rw [fold, fold, ← Text.settleAfter_flatMap_spareChar, htexts, Text.settleAfter_flatMap_spareChar]

theorem qualify {group other first second : String} (hgroup : Alike group other)
    (hname : Alike first second) : Alike (qualify group first) (qualify other second) := by
  rw [Alike, respell_qualify Text.transparent_spareChar, respell_qualify Text.transparent_spareChar,
    show respell _ group = _ from hgroup, show respell _ first = _ from hname]

-- Without a capital sigma nothing else tells the spellings of one key apart.
theorem of_fold_eq {first second : String} (hfirst : SigmaFree first) (hsecond : SigmaFree second)
    (h : fold first = fold second) : Alike first second := by
  rw [Alike, respell_spareChar hfirst, respell_spareChar hsecond, h]

end Alike

/-! ## A group in front of a name -/

/-- The group changes the form of a sigma in the name: the word that the sigma ends begins before
the colon. -/
def Distorts (group name : String) : Prop :=
  Text.startsCased group.toList.reverse = true ∧ Text.opensWithFinalSigma name.toList = true

instance (group name : String) : Decidable (Distorts group name) :=
  inferInstanceAs (Decidable (_ ∧ _))

theorem not_distorts_of_sigmaFree {name : String} (h : SigmaFree name) (group : String) :
    ¬ Distorts group name := by
  rintro ⟨-, hopens⟩
  unfold Text.opensWithFinalSigma at hopens
  split at hopens
  · cases hopens
  · rename_i c rest hletters
    have hc : c ∈ name.toList := by
      have hsuffix := List.dropWhile_suffix (l := name.toList) Text.isCaseIgnorable
      rw [hletters] at hsuffix
      exact hsuffix.subset List.mem_cons_self
    have hsigma : c = 'Σ' := by
      rw [Bool.and_eq_true, beq_iff_eq] at hopens
      exact hopens.1
    exact h (hsigma ▸ hc)

-- The key of a qualified name splits into the keys of its parts unless the group distorts the name.
theorem splitQualified?_fold_qualify {group : String} (hgroup : ':' ∉ group.toList) (name : String) :
    ∃ front rest, splitQualified? (fold (qualify group name)) = some (front, rest) ∧
      (rest = fold name ↔ ¬ Distorts group name) := by
  rcases Text.exists_lowerAfter_append [] group.toList (':' :: name.toList) with
    ⟨front, happend, hmem⟩
  rw [Text.lowerAfter_cons_of_lt (by decide), List.append_nil] at happend
  have hqualify : (qualify group name).toList = group.toList ++ ':' :: name.toList := by
    simp [qualify]
  have hcontext : Text.startsCased (':' :: group.toList.reverse) =
      Text.startsCased group.toList.reverse := by
    have hignorable : Text.isCaseIgnorable ':' = true := by decide
    rw [Text.startsCased_cons, hignorable, if_pos rfl]
  refine ⟨String.ofList front,
    String.ofList (Text.lowerAfter (':' :: group.toList.reverse) name.toList), ?_, ?_⟩
  · rw [splitQualified?_eq, splitFirst?_eq_some_iff, String.toList_ofList, String.toList_ofList,
      toList_fold, hqualify]
    exact ⟨mt (hmem ':' (by decide) (by decide)).mp hgroup, happend⟩
  · rw [fold, String.ofList_inj, Text.lowerAfter_eq_lower_iff, hcontext, Distorts]

end Name

end SchemaCatalog
