import Std.Data.TreeMap
/-! Finite maps from names, kept in the order of the names. -/
namespace CallEngine

structure Table (α : Type) where
  map : Std.TreeMap String α := {}

namespace Table

variable {α : Type}

instance : Inhabited (Table α) := ⟨{}⟩

def get? (table : Table α) (name : String) : Option α := table.map[name]?

def insert (table : Table α) (name : String) (value : α) : Table α := ⟨table.map.insert name value⟩

/-- Names ascend. -/
def toList (table : Table α) : List (String × α) := table.map.toList

@[simp] theorem get?_empty (name : String) : (({} : Table α).get? name) = none := by
  simp [get?]

@[simp] theorem get?_insert (table : Table α) (name other : String) (value : α) :
    (table.insert name value).get? other =
      if name = other then some value else table.get? other := by
  simp only [get?, insert, Std.TreeMap.getElem?_insert, Std.LawfulEqCmp.compare_eq_iff_eq]

theorem mem_toList {table : Table α} {name : String} {value : α} :
    (name, value) ∈ table.toList ↔ table.get? name = some value :=
  Std.TreeMap.mem_toList_iff_getElem?_eq_some

end Table

end CallEngine
