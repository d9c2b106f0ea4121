import Mathlib.Logic.Function.Basic

/-!
# Objects by location

Objects that are moved and swapped are told apart by where they live. A store maps each location to
the object that lives there, and the operations read and write two locations that may be the same.
-/

abbrev ObjectStore (Location Object : Type*) := Location → Option Object

namespace ObjectStore

variable {Location Object : Type*} [DecidableEq Location] {store : ObjectStore Location Object}
  {property : Object → Prop} {loc a b : Location} {x y : Object}

def All (property : Object → Prop) (store : ObjectStore Location Object) : Prop :=
  ∀ loc object, store loc = some object → property object

def put (store : ObjectStore Location Object) (loc : Location) (object : Object) :
    ObjectStore Location Object :=
  Function.update store loc (some object)

def remove (store : ObjectStore Location Object) (loc : Location) :
    ObjectStore Location Object :=
  Function.update store loc none

@[simp] theorem put_self : store.put loc x loc = some x := by
  simp [put]

theorem put_of_ne (hne : a ≠ b) : store.put b x a = store a := by
  simp [put, hne]

@[simp] theorem put_put : (store.put loc x).put loc y = store.put loc y :=
  Function.update_idem _ _ _

theorem put_comm (hne : a ≠ b) : (store.put a x).put b y = (store.put b y).put a x :=
  Function.update_comm hne _ _ _

@[simp] theorem remove_self : store.remove loc loc = none := by
  simp [remove]

theorem remove_of_ne (hne : a ≠ b) : store.remove b a = store a := by
  simp [remove, hne]

theorem put_remove : (store.remove loc).put loc x = store.put loc x :=
  Function.update_idem _ _ _

theorem All.put (hall : store.All property) (hx : property x) : (store.put loc x).All property := by
  intro other object hobject
  by_cases heq : other = loc
  · rw [heq, put_self] at hobject
    exact Option.some.inj hobject ▸ hx
  · rw [put_of_ne heq] at hobject
    exact hall other object hobject

theorem All.remove (hall : store.All property) : (store.remove loc).All property := by
  intro other object hobject
  by_cases heq : other = loc
  · rw [heq, remove_self] at hobject
    cases hobject
  · rw [remove_of_ne heq] at hobject
    exact hall other object hobject

theorem All.of_put_put (hall : ((store.put a x).put b y).All property) (hne : a ≠ b) :
    property x ∧ property y := by
  refine ⟨hall a x ?_, hall b y put_self⟩
  rw [put_of_ne hne, put_self]

end ObjectStore
