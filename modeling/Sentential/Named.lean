/-! # Named values

A finite map from names to values. A name has at most one value, so putting a value under a name
replaces the one it had: what `get?` finds after `put` and `erase` is stated below.
-/

namespace Sentential

universe u

structure Named (α : Type u) where
  /-- The names with their values, the one that was put last first. -/
  pairs : List (String × α)
  nodup : (pairs.map Prod.fst).Nodup

namespace Named

variable {α : Type u}

def empty : Named α := ⟨[], List.nodup_nil⟩

def get? (named : Named α) (name : String) : Option α :=
  named.pairs.lookup name

def erase (named : Named α) (name : String) : Named α where
  pairs := named.pairs.filter fun pair => pair.1 != name
  nodup := named.nodup.sublist (List.filter_sublist.map Prod.fst)

def put (named : Named α) (name : String) (value : α) : Named α where
  pairs := (name, value) :: (named.erase name).pairs
  nodup := by
    refine List.nodup_cons.2 ⟨?_, (named.erase name).nodup⟩
    simp [erase]

@[simp] theorem get?_empty (name : String) : (empty : Named α).get? name = none := rfl

theorem get?_erase (named : Named α) (name other : String) :
    (named.erase name).get? other = if other = name then none else named.get? other := by
  obtain ⟨pairs, _⟩ := named
  simp only [get?, erase]
  induction pairs with
  | nil => simp
  | cons pair rest ih =>
    obtain ⟨key, value⟩ := pair
    grind

theorem get?_put (named : Named α) (name other : String) (value : α) :
    (named.put name value).get? other = if other = name then some value else named.get? other := by
  have h : (named.put name value).get? other =
      if other = name then some value else (named.erase name).get? other := by
    simp only [get?, put, List.lookup_cons]
    by_cases hc : other = name
    · simp [hc]
    · simp [hc, beq_eq_false_iff_ne.2 hc]
  rw [h, get?_erase]
  by_cases hc : other = name <;> simp [hc]

end Named

end Sentential
