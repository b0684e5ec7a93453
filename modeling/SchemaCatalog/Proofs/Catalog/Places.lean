import SchemaCatalog.Proofs.Catalog.Coherence
import SchemaCatalog.Proofs.Name.Spelling

/-!
# Places of different names

The places of a name are told apart by the number of their sub-catalogs, and each of them gives the
whole name back.  Away from the capital sigma folding commutes with splitting, so the keys at the
places of a name are the places of its key.  Two names then have all their places in common, or none.
-/

namespace SchemaCatalog.Place

/-- The keys of the sub-catalogs and of the name at a place. -/
def fold (place : Place) : Place :=
  ⟨place.catalogs.map Name.fold, Name.fold place.name⟩

theorem ofName_nested {name : String}
    (h : ∀ segment ∈ Name.segments name, Text.isBlank segment = false) :
    ofName true name = .ok (splits (Name.segments name)) := by
  rw [ofName_eq, if_neg (by simpa using h)]
  rfl

theorem length_splits (segments : List String) : (splits segments).length = segments.length := by
  rw [splits, List.length_map, List.length_range]

theorem getElem_splits (segments : List String) {count : Nat}
    (h : count < (splits segments).length) :
    (splits segments)[count] = ⟨segments.take count, Name.dotted (segments.drop count)⟩ := by
  simp [splits]

theorem map_fold_splits {segments : List String} (h : ∀ segment ∈ segments, Name.SigmaFree segment) :
    (splits segments).map fold = splits (segments.map Name.fold) := by
  rw [splits, splits, List.map_map, List.length_map]
  refine List.map_congr_left fun count _ => ?_
  have hdropped : ∀ segment ∈ segments.drop count, Name.SigmaFree segment :=
    fun segment hsegment => h segment (List.mem_of_mem_drop hsegment)
  rw [Function.comp_apply, fold, Name.fold_dotted hdropped, List.map_take, List.map_drop]

-- The keys at the places of a name are the places of its key.
theorem map_fold_splits_segments {name : String} (h : Name.SigmaFree name) :
    (splits (Name.segments name)).map fold = splits (Name.segments (Name.fold name)) := by
  rw [Name.segments_fold h, map_fold_splits]
  exact fun _ hsegment => Name.sigmaFree_of_mem_segments h hsegment

-- A place determines the name that is split.
theorem eq_of_mem_splits_segments {first second : String} {place : Place}
    (hfirst : place ∈ splits (Name.segments first))
    (hsecond : place ∈ splits (Name.segments second)) : first = second := by
  rw [← Name.dotted_segments first, ← Catalog.dotted_of_mem_splits hfirst,
    Catalog.dotted_of_mem_splits hsecond, Name.dotted_segments]

/-- **Two names share all their places or none.**  A valid name has a place for every number of
leading segments as sub-catalogs; none of these holds a full stop, and joined to the name of the place
they are the whole name.  The keys at the places of two names are the same, one by one, if the names
have the same key, and otherwise no place of one has the keys of a place of the other. -/
theorem places_eq_or_disjoint {name : String}
    (hname : ∀ segment ∈ Name.segments name, Text.isBlank segment = false) :
    ∃ places, ofName true name = .ok places ∧
      places.length = (Name.segments name).length ∧
      (∀ (count : Nat) (hcount : count < places.length),
        places[count].catalogs.length = count ∧
        (∀ segment ∈ places[count].catalogs, '.' ∉ segment.toList) ∧
        Name.dotted (places[count].catalogs ++ [places[count].name]) = name) ∧
      ∀ (other : String) (others : List Place), ofName true other = .ok others →
        Name.SigmaFree name → Name.SigmaFree other →
          (Name.fold name = Name.fold other → places.map fold = others.map fold) ∧
          (Name.fold name ≠ Name.fold other →
            ∀ place ∈ places.map fold, place ∉ others.map fold) := by
  refine ⟨_, ofName_nested hname, length_splits _, fun count hcount => ⟨?_, ?_, ?_⟩, ?_⟩
  · rw [length_splits] at hcount
    rw [getElem_splits, List.length_take, Nat.min_eq_left (Nat.le_of_lt hcount)]
  · intro segment hsegment
    rw [getElem_splits] at hsegment
    exact Name.dot_notMem_of_mem_segments (List.mem_of_mem_take hsegment)
  · rw [Catalog.dotted_of_mem_splits (List.getElem_mem hcount), Name.dotted_segments]
  · intro other others hothers hfree hotherFree
    obtain rfl : others = splits (Name.segments other) := eq_splits_of_ofName hothers
    rw [map_fold_splits_segments hfree, map_fold_splits_segments hotherFree]
    refine ⟨fun hsame => by rw [hsame], fun hne place hplace hother => hne ?_⟩
    exact eq_of_mem_splits_segments hplace hother

/-- Names that differ in case, and names of which one is a part of the other. -/
theorem places_eq_or_disjoint_parts :
    (splits (Name.segments "Sales.Ärea.t")).map fold =
        (splits (Name.segments "sales.äREA.T")).map fold ∧
      ∀ place ∈ (splits (Name.segments "Sales.Ärea.t")).map fold,
        place ∉ (splits (Name.segments "ärea.t")).map fold := by
  have hname : ∀ segment ∈ Name.segments "Sales.Ärea.t", Text.isBlank segment = false := by decide
  rcases places_eq_or_disjoint hname with ⟨places, hplaces, -, -, hpairs⟩
  obtain rfl : places = splits (Name.segments "Sales.Ärea.t") := eq_splits_of_ofName hplaces
  have hsame := hpairs "sales.äREA.T" _ (ofName_nested (by decide)) (by decide) (by decide)
  have hother := hpairs "ärea.t" _ (ofName_nested (by decide)) (by decide) (by decide)
  exact ⟨hsame.1 (by decide +kernel), hother.2 (by decide +kernel)⟩

end SchemaCatalog.Place
