/-!
# Sets of names

A set of strings is its list in strictly ascending code point order, so equal sets are equal lists.
-/

namespace GuestGate

structure NameSet where
  names : List String := []
  ascending : names.Pairwise (· < ·) := by simp
deriving DecidableEq, Repr

namespace NameSet

instance : EmptyCollection NameSet := ⟨{}⟩

instance : Membership String NameSet := ⟨fun set name => name ∈ set.names⟩

instance (name : String) (set : NameSet) : Decidable (name ∈ set) :=
  inferInstanceAs (Decidable (name ∈ set.names))

/-- Places a name in an ascending list, once. -/
def place (name : String) : List String → List String
  | [] => [name]
  | other :: rest =>
    if name < other then name :: other :: rest
    else if name = other then other :: rest
    else other :: place name rest

theorem mem_place {name other : String} {names : List String} :
    other ∈ place name names ↔ other = name ∨ other ∈ names := by
  induction names with
  | nil => simp [place]
  | cons first rest ih =>
    unfold place
    split
    · simp
    · split <;> simp_all [or_left_comm]

theorem place_ascending {name : String} {names : List String} (h : names.Pairwise (· < ·)) :
    (place name names).Pairwise (· < ·) := by
  induction names with
  | nil => simp [place]
  | cons first rest ih =>
    obtain ⟨hf, hr⟩ := List.pairwise_cons.mp h
    unfold place
    split
    next hlt =>
      refine List.pairwise_cons.mpr ⟨fun other member => ?_, h⟩
      rcases List.mem_cons.mp member with rfl | member
      · exact hlt
      · exact String.lt_trans hlt (hf other member)
    next hlt =>
      split
      · exact h
      next hne =>
        refine List.pairwise_cons.mpr ⟨fun other member => ?_, ih hr⟩
        rcases mem_place.mp member with rfl | member
        · exact Std.lt_of_le_of_ne (String.not_lt.mp hlt) (Ne.symm hne)
        · exact hf other member

def insert (set : NameSet) (name : String) : NameSet :=
  ⟨place name set.names, place_ascending set.ascending⟩

def ofList (names : List String) : NameSet := names.foldl insert ∅

theorem mem_insert {set : NameSet} {name other : String} :
    other ∈ set.insert name ↔ other = name ∨ other ∈ set := mem_place

theorem not_mem_empty (name : String) : name ∉ (∅ : NameSet) := List.not_mem_nil

theorem mem_foldl_insert {names : List String} {set : NameSet} {name : String} :
    name ∈ names.foldl insert set ↔ name ∈ set ∨ name ∈ names := by
  induction names generalizing set with
  | nil => simp
  | cons first rest ih => simp [ih, mem_insert, or_assoc, or_left_comm]

theorem mem_ofList {names : List String} {name : String} : name ∈ ofList names ↔ name ∈ names := by
  simp [ofList, mem_foldl_insert, not_mem_empty]

end NameSet

end GuestGate
