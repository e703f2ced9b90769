import SliceRecovery.OrderedMap
import SliceRecovery.Types.DataType

/-!
# SliceRecovery.Analysis.Variable -- declared variables and their table

A variable knows its address, and the table that holds it is indexed by address. The table carries
the law that the two agree, so a variable that was taken out of a table can be put back from what
it says of itself.
-/

namespace SliceRecovery

/-- A typed place in memory. -/
structure Variable where
  address : Address
  type : DataType
  name : Option String
  /-- The stored pointer, for a pointer that can be read. -/
  value : Option UInt64
  deriving Repr

/-- The variables of an analysis, each at its own address. -/
structure VariableTable where
  map : OrderedMap Address Variable
  keyed : ∀ {a v}, map.get? a = some v → v.address = a

namespace VariableTable

/-- The table without variables. -/
def empty : VariableTable := ⟨OrderedMap.empty, by rintro a v ⟨⟩⟩

instance : Inhabited VariableTable := ⟨empty⟩

/-- The variable at an address. -/
def get? (t : VariableTable) (a : Address) : Option Variable := t.map.get? a

/-- The addresses, ascending. -/
def keys (t : VariableTable) : List Address := t.map.keys

/-- The variables, by ascending address. -/
def values (t : VariableTable) : List Variable := t.map.values

/-- Put a variable at its address, replacing what is there. -/
def place (t : VariableTable) (v : Variable) : VariableTable where
  map := t.map.insert v.address v
  keyed := by
    intro a u h
    rw [OrderedMap.get?_insert] at h
    split at h
    · cases h
      exact Eq.symm ‹_›
    · exact t.keyed h

/-- Remove the variable at an address. -/
def erase (t : VariableTable) (a : Address) : VariableTable where
  map := t.map.erase a
  keyed := by
    intro b u h
    rw [OrderedMap.get?_erase] at h
    split at h
    · cases h
    · exact t.keyed h

/-- The table of a list of variables; of two at one address the later counts. -/
def ofList (vs : List Variable) : VariableTable := vs.foldl place empty

theorem address_of_get? {t : VariableTable} {a : Address} {v : Variable}
    (h : t.get? a = some v) : v.address = a :=
  t.keyed h

theorem get?_place (t : VariableTable) (v : Variable) (a : Address) :
    (t.place v).get? a = if a = v.address then some v else t.get? a :=
  OrderedMap.get?_insert _ _ _ _

theorem get?_erase (t : VariableTable) (a b : Address) :
    (t.erase a).get? b = if b = a then none else t.get? b :=
  OrderedMap.get?_erase _ _ _

/-- A table is its lookups. -/
theorem ext_get? {t u : VariableTable} (h : ∀ a, t.get? a = u.get? a) : t = u := by
  cases t with
  | mk m hm =>
    cases u with
    | mk n hn =>
      cases OrderedMap.ext_get? h
      rfl

/-- The listed variables are those found at their own address. -/
theorem mem_values_iff {t : VariableTable} {v : Variable} :
    v ∈ t.values ↔ t.get? v.address = some v := by
  unfold values get?
  rw [OrderedMap.mem_values_iff]
  constructor
  · rintro ⟨a, h⟩
    rw [t.keyed h]
    exact h
  · intro h
    exact ⟨_, h⟩

/-- Addresses rise along the list of variables. -/
theorem ascending_values (t : VariableTable) :
    t.values.Pairwise fun u v => u.address < v.address := by
  have h := t.map.ascending
  unfold values OrderedMap.values
  rw [List.pairwise_map]
  refine h.imp_of_mem ?_
  intro a b ha hb hab
  rw [t.keyed (OrderedMap.get?_of_mem_entries ha), t.keyed (OrderedMap.get?_of_mem_entries hb)]
  exact hab

/-- Taking a variable out and putting it back leaves the table as it was. -/
theorem place_erase {t : VariableTable} {a : Address} {v : Variable} (h : t.get? a = some v) :
    (t.erase a).place v = t := by
  apply ext_get?
  intro b
  rw [get?_place, get?_erase, address_of_get? h]
  split
  · subst b
    exact h.symm
  · rfl

/-- Putting a variable at a free address and taking it out leaves the table as it was. -/
theorem erase_place {t : VariableTable} {v : Variable} (h : t.get? v.address = none) :
    (t.place v).erase v.address = t := by
  apply ext_get?
  intro b
  rw [get?_erase, get?_place]
  split
  · subst b
    exact h.symm
  · rfl

end VariableTable
end SliceRecovery
