/-! Values of scripts. Closures, classes and objects are known by identity. -/
namespace CallEngine

abbrev ClosureId := Nat

abbrev ClassId := Nat

structure Object where
  id : Nat
  cls : ClassId
deriving DecidableEq, Inhabited, Repr

inductive Value where
  | nil
  | bool (value : Bool)
  /-- Integers wrap at 64 bits. -/
  | int (value : Int64)
  | str (value : String)
  | array (items : Array Value)
  | proc (closure : ClosureId)
  | cls (cls : ClassId)
  | object (object : Object)
deriving Inhabited

namespace Value

/-- Everything but nil and false. -/
def isTruthy : Value → Bool
  | nil | bool false => false
  | _ => true

mutual

/-- Arrays of different sizes differ, whatever is in them. -/
def same (a b : Value) : Bool :=
  match a, b with
  | nil, nil => true
  | bool a, bool b => a == b
  | int a, int b => a == b
  | str a, str b => a == b
  | array as, array bs => if sizes : as.size = bs.size then sameFrom as bs sizes 0 else false
  | proc a, proc b => a == b
  | cls a, cls b => a == b
  | object a, object b => a == b
  | _, _ => false
termination_by (sizeOf a, 0)

/-- Whether the items from `start` on are the same. -/
def sameFrom (as bs : Array Value) (sizes : as.size = bs.size) (start : Nat) : Bool :=
  if inside : start < as.size then
    same as[start] bs[start] && sameFrom as bs sizes (start + 1)
  else true
termination_by (sizeOf as, as.size - start)

end

mutual

theorem same_iff (a b : Value) : same a b = true ↔ a = b := by
  cases a with
  | array as =>
    cases b with
    | array bs =>
      rw [same]
      split
      · next sizes =>
        rw [sameFrom_iff as bs sizes 0, array.injEq]
        exact ⟨fun h => Array.ext_getElem? (h · (Nat.zero_le _)), fun h _ _ => h ▸ rfl⟩
      · next sizes =>
        simp only [Bool.false_eq_true, array.injEq, false_iff]
        exact fun h => sizes (congrArg Array.size h)
    | _ => simp [same]
  | _ => cases b <;> simp [same]
termination_by (sizeOf a, 0)

theorem sameFrom_iff (as bs : Array Value) (sizes : as.size = bs.size) (start : Nat) :
    sameFrom as bs sizes start = true ↔ ∀ i, start ≤ i → as[i]? = bs[i]? := by
  rw [sameFrom]
  split
  · next inside =>
    have inside' : start < bs.size := sizes ▸ inside
    rw [Bool.and_eq_true, same_iff, sameFrom_iff as bs sizes (start + 1)]
    constructor
    · intro h i later
      rcases Nat.eq_or_lt_of_le later with rfl | later
      · simp [inside, inside', h.1]
      · exact h.2 i later
    · intro h
      have first := h start (Nat.le_refl start)
      simp only [inside, inside', getElem?_pos, Option.some.injEq] at first
      exact ⟨first, fun i later => h i (Nat.le_of_succ_le later)⟩
  · next outside =>
    simp only [true_iff]
    intro i later
    rw [getElem?_neg as i (by omega), getElem?_neg bs i (by omega)]
termination_by (sizeOf as, as.size - start)

end

instance : DecidableEq Value := fun a b => decidable_of_iff _ (same_iff a b)

end Value

end CallEngine
